import TrinityCore.Utilities.Schedule

set_option autoImplicit false

namespace TrinityCore.Utilities

def Occurrence.entry (o : Occurrence) : Nat × Nat := (o.due,packed o.id o.group o.phase)

structure Occurrence.Small (o : Occurrence) : Prop where
  id : o.id < 2^16
  group : o.group ≤ 8
  phase : o.phase ≤ 8

/-- A map with the tags of its entries, and the schedule that it is. -/
structure Represents (s : Schedule) (map : EventMap) (tagged : List Occurrence) : Prop where
  now : s.timer ≤ s.now
  timer : map.time = s.timer
  entries : map.eventMap = tagged.map Occurrence.entry
  sorted : TimedQueue.Sorted Occurrence.due tagged
  pending : s.pending = (tagged.map (Occurrence.delay (s.now-s.timer)) : List Occurrence)
  small : ∀ o ∈ tagged, o.Small
  last : map.lastEvent = packed s.last.1 s.last.2.1 s.last.2.2
  lastSmall : s.last.1 < 2^16 ∧ s.last.2.1 ≤ 8 ∧ s.last.2.2 ≤ 8
  phases : ∀ phase, phase ∈ s.phases ↔
    phase ≠ 0 ∧ phase ≤ 8 ∧ map.phase.testBit (phase-1) = true
  mask : map.phase < 2^8

theorem entry_insert (o : Occurrence) (l : List Occurrence) :
    (TimedQueue.insert Occurrence.due o l).map Occurrence.entry =
      TimedQueue.insert Prod.fst o.entry (l.map Occurrence.entry) :=
  TimedQueue.map_insert Occurrence.entry fun _ => rfl

theorem entry_insertAll (os l : List Occurrence) :
    (TimedQueue.insertAll Occurrence.due os l).map Occurrence.entry =
      TimedQueue.insertAll Prod.fst (os.map Occurrence.entry) (l.map Occurrence.entry) :=
  TimedQueue.map_insertAll Occurrence.entry (fun o => (rfl : o.entry.1 = o.due)) os

section Calls

variable {s : Schedule} {map : EventMap} {tagged : List Occurrence}

theorem represents_start : Represents Schedule.start EventMap.new [] := by
  constructor <;> simp [Schedule.start,EventMap.new,packed,TimedQueue.Sorted]

theorem represents_schedule (h : Represents s map tagged) {id time group phase : Nat}
    (hid : id < 2^16) (hgroup : group ≤ 8) (hphase : phase ≤ 8) (htime : map.time+time < 2^32) :
    ∃ tagged', Represents (s.schedule id time group phase)
      (map.insert time (packed id group phase)) tagged' := by
  refine ⟨TimedQueue.insert Occurrence.due ⟨s.serial,id,group,phase,map.time+time⟩ tagged,?_⟩
  refine ⟨h.now,h.timer,?_,TimedQueue.sorted_insert h.sorted,?_,?_,h.last,h.lastSmall,h.phases,
    h.mask⟩
  · unfold EventMap.insert add32
    dsimp only
    rw [Nat.mod_eq_of_lt htime,h.entries]
    exact (entry_insert ⟨s.serial,id,group,phase,map.time+time⟩ tagged).symm
  · unfold Schedule.schedule
    dsimp only
    rw [h.pending,Multiset.cons_coe,Multiset.coe_eq_coe]
    refine List.Perm.trans ?_ (TimedQueue.perm_insert.map _).symm
    rw [List.map_cons]
    have hdue : (⟨s.serial,id,group,phase,map.time+time⟩ : Occurrence).delay (s.now-s.timer) =
        ⟨s.serial,id,group,phase,s.now+time⟩ := by
      have := h.now
      have := h.timer
      unfold Occurrence.delay
      congr 1
      dsimp only
      omega
    rw [hdue]
  · intro o ho
    rcases TimedQueue.mem_insert.mp ho with rfl | ho
    · exact ⟨hid,hgroup,hphase⟩
    · exact h.small o ho

theorem represents_cancel (h : Represents s map tagged) {p : Occurrence → Prop} [DecidablePred p]
    {q : Nat × Nat → Bool} (hdelay : ∀ k o, p (Occurrence.delay k o) ↔ p o)
    (hq : ∀ o : Occurrence, o.Small → (q o.entry = true ↔ ¬ p o)) :
    Represents (s.cancel p) { map with eventMap := map.eventMap.filter q }
      (tagged.filter fun o => ¬ p o) := by
  refine ⟨h.now,h.timer,?_,List.Pairwise.filter _ h.sorted,?_,
    fun o ho => h.small o (List.mem_of_mem_filter ho),h.last,h.lastSmall,h.phases,h.mask⟩
  · dsimp only
    rw [h.entries,List.filter_map]
    refine congrArg (List.map Occurrence.entry) (List.filter_congr fun o ho => ?_)
    rw [Bool.eq_iff_iff,decide_eq_true_eq]
    exact hq o (h.small o ho)
  · unfold Schedule.cancel
    dsimp only
    rw [h.pending,Multiset.filter_coe,List.filter_map]
    refine congrArg _ (congrArg (List.map _) (List.filter_congr fun o _ => ?_))
    rw [Bool.eq_iff_iff,Function.comp_apply,decide_eq_true_eq,decide_eq_true_eq,hdelay]

theorem represents_cancelEvent (h : Represents s map tagged) (id : Nat) :
    Represents (s.cancel fun o => o.id = id) (map.cancelEvent id)
      (tagged.filter fun o => ¬ o.id = id) := by
  refine represents_cancel h (fun _ _ => Iff.rfl) fun o ho => ?_
  unfold Occurrence.entry
  dsimp only
  rw [packed_id ho.id ho.group ho.phase,decide_eq_true_eq]

theorem Occurrence.Small.in_group {o : Occurrence} (h : o.Small) {group : Nat} (hgroup : group ≠ 0)
    (hle : group ≤ 8) : o.entry.2 &&& 1 <<< (group+15) ≠ 0 ↔ o.group = group :=
  packed_group h.id h.group h.phase hgroup hle

theorem not_in_group (h : Represents s map tagged) {group : Nat}
    (hgroup : group = 0 ∨ group > 8 ∨ map.eventMap = []) :
    ∀ o ∈ s.pending, ¬ (group ≠ 0 ∧ o.group = group) := by
  intro o ho
  rw [h.pending,Multiset.mem_coe] at ho
  obtain ⟨o',ho',rfl⟩ := List.mem_map.mp ho
  rcases hgroup with hzero | hover | hempty
  · simp [hzero]
  · have := (h.small o' ho').group
    rintro ⟨-,heq⟩
    change o'.group = group at heq
    omega
  · rw [h.entries,List.map_eq_nil_iff] at hempty
    simp [hempty] at ho'

theorem represents_cancelEventGroup (h : Represents s map tagged) (group : Nat) :
    ∃ tagged', Represents (s.cancel fun o => group ≠ 0 ∧ o.group = group)
      (map.cancelEventGroup group) tagged' := by
  unfold EventMap.cancelEventGroup
  split_ifs with hgroup
  · have hsame : s.cancel (fun o => group ≠ 0 ∧ o.group = group) = s := by
      have hnone := not_in_group h hgroup
      unfold Schedule.cancel
      rw [Multiset.filter_eq_self.mpr hnone,Multiset.filter_eq_nil.mpr hnone,add_zero]
    rw [hsame]
    exact ⟨tagged,h⟩
  · rw [not_or,not_or] at hgroup
    refine ⟨_,represents_cancel h (fun _ _ => Iff.rfl) fun o ho => ?_⟩
    have := ho.in_group hgroup.1 (not_lt.mp hgroup.2.1)
    rw [decide_eq_true_eq,← not_iff_not,not_not]
    exact this.trans (by simp [hgroup.1])

theorem represents_delayEvents (h : Represents s map tagged) (delay : Nat) :
    Represents (s.apply (.delayEvents delay)) (map.delayEvents delay) tagged := by
  have hle := h.now
  refine ⟨?_,?_,h.entries,h.sorted,?_,h.small,h.last,h.lastSmall,h.phases,h.mask⟩
  · unfold Schedule.apply Schedule.delay
    dsimp only
    omega
  · unfold EventMap.delayEvents Schedule.apply Schedule.delay
    dsimp only
    rw [h.timer]
    split_ifs <;> omega
  · unfold Schedule.apply Schedule.delay
    dsimp only
    rw [h.pending,Multiset.map_coe,List.map_map]
    refine congrArg _ (List.map_congr_left fun o _ => ?_)
    rw [Function.comp_apply,if_pos trivial]
    unfold Occurrence.delay
    congr 1
    dsimp only
    omega

theorem represents_delayEventsGroup (h : Represents s map tagged) {delay : Nat} (group : Nat)
    (hfits : ∀ e ∈ map.eventMap, e.1+delay < 2^32) :
    ∃ tagged', Represents (s.delay delay fun o => group ≠ 0 ∧ o.group = group)
      (map.delayEventsGroup delay group) tagged' := by
  unfold EventMap.delayEventsGroup
  split_ifs with hgroup
  · have hsame : s.delay delay (fun o => group ≠ 0 ∧ o.group = group) = s := by
      have hnone := not_in_group h hgroup
      unfold Schedule.delay
      rw [Multiset.map_congr rfl fun o ho => if_neg (hnone o ho),Multiset.map_id']
    rw [hsame]
    exact ⟨tagged,h⟩
  · rw [not_or,not_or] at hgroup
    have hin : ∀ o ∈ tagged, (o.entry.2 &&& 1 <<< (group+15) ≠ 0 ↔ o.group = group) :=
      fun o ho => (h.small o ho).in_group hgroup.1 (not_lt.mp hgroup.2.1)
    have hmoved : (map.eventMap.filter fun e => e.2 &&& 1 <<< (group+15) ≠ 0).map
        (fun e => (add32 e.1 delay,e.2)) =
        ((tagged.filter fun o => o.group = group).map (Occurrence.delay delay)).map
          Occurrence.entry := by
      have hfilter : (tagged.map Occurrence.entry).filter
          (fun e => e.2 &&& 1 <<< (group+15) ≠ 0) =
            (tagged.filter fun o => o.group = group).map Occurrence.entry := by
        rw [List.filter_map]
        refine congrArg _ (List.filter_congr fun o ho => ?_)
        rw [Bool.eq_iff_iff,Function.comp_apply,decide_eq_true_eq,decide_eq_true_eq]
        exact hin o ho
      rw [h.entries,hfilter,List.map_map,List.map_map]
      refine List.map_congr_left fun o ho => ?_
      have hlt := hfits o.entry (by
        rw [h.entries]
        exact List.mem_map_of_mem (List.mem_of_mem_filter ho))
      rw [Function.comp_apply,Function.comp_apply]
      unfold add32
      rw [Nat.mod_eq_of_lt hlt,Nat.add_comm]
      rfl
    have hkept : (map.eventMap.filter fun e => e.2 &&& 1 <<< (group+15) = 0) =
        (tagged.filter fun o => ¬ o.group = group).map Occurrence.entry := by
      rw [h.entries,List.filter_map]
      refine congrArg _ (List.filter_congr fun o ho => ?_)
      rw [Bool.eq_iff_iff,Function.comp_apply,decide_eq_true_eq,decide_eq_true_eq,← hin o ho,
        not_not]
    have hpending : ((tagged.map (Occurrence.delay (s.now-s.timer))).map fun o =>
        if group ≠ 0 ∧ o.group = group then o.delay delay else o).Perm
          ((((tagged.filter fun o => o.group = group).map (Occurrence.delay delay)) ++
            (tagged.filter fun o => ¬ o.group = group)).map
              (Occurrence.delay (s.now-s.timer))) := by
      rw [List.map_map]
      refine ((List.filter_append_perm (fun o => o.group = group) tagged).symm.map _).trans ?_
      rw [List.map_append,List.map_append,List.map_map]
      simp only [decide_not]
      refine List.Perm.of_eq (congrArg₂ (· ++ ·) (List.map_congr_left fun o ho => ?_)
        (List.map_congr_left fun o ho => ?_))
      · have hmine : o.group = group := by simpa using List.of_mem_filter ho
        rw [Function.comp_apply,Function.comp_apply,if_pos ⟨hgroup.1,hmine⟩]
        unfold Occurrence.delay
        congr 1
        dsimp only
        omega
      · have hother : ¬ o.group = group := by simpa using List.of_mem_filter ho
        rw [Function.comp_apply,if_neg fun hboth => hother hboth.2]
    dsimp only
    rw [hmoved,hkept]
    obtain ⟨moved,hmoved'⟩ : ∃ moved, moved =
        (tagged.filter fun o => o.group = group).map (Occurrence.delay delay) := ⟨_,rfl⟩
    obtain ⟨kept,hkept'⟩ : ∃ kept, kept = tagged.filter fun o => ¬ o.group = group := ⟨_,rfl⟩
    rw [← hmoved',← hkept'] at hpending ⊢
    have hperm : (TimedQueue.insertAll Occurrence.due
        (TimedQueue.insertAll Occurrence.due moved []) kept).Perm (moved ++ kept) := by
      have hdelayed : (TimedQueue.insertAll Occurrence.due moved []).Perm (moved ++ []) :=
        TimedQueue.perm_insertAll moved
      rw [List.append_nil] at hdelayed
      exact (TimedQueue.perm_insertAll _).trans (hdelayed.append_right kept)
    refine ⟨TimedQueue.insertAll Occurrence.due
      (TimedQueue.insertAll Occurrence.due moved []) kept,?_⟩
    refine ⟨h.now,h.timer,?_,?_,?_,?_,h.last,h.lastSmall,h.phases,h.mask⟩
    · rw [entry_insertAll,entry_insertAll]
      rfl
    · refine TimedQueue.sorted_insertAll _ ?_
      rw [hkept']
      exact List.Pairwise.filter _ h.sorted
    · unfold Schedule.delay
      dsimp only
      rw [h.pending,Multiset.map_coe,Multiset.coe_eq_coe]
      exact hpending.trans (hperm.symm.map _)
    · intro o ho
      rcases List.mem_append.mp (hperm.mem_iff.mp ho) with ho | ho
      · rw [hmoved'] at ho
        obtain ⟨o',ho',rfl⟩ := List.mem_map.mp ho
        have := h.small o' (List.mem_of_mem_filter ho')
        exact ⟨this.id,this.group,this.phase⟩
      · rw [hkept'] at ho
        exact h.small o (List.mem_of_mem_filter ho)

theorem mask_bit {phase : Nat} (hle : phase ≤ 8) : 1 <<< (phase-1) < 2^8 := by
  rw [Nat.one_shiftLeft]
  exact Nat.pow_lt_pow_right (by decide) (by omega)

theorem represents_phases (h : Represents s map tagged) {phases : Finset Nat} {mask : Nat}
    (hphases : ∀ phase, phase ∈ phases ↔
      phase ≠ 0 ∧ phase ≤ 8 ∧ mask.testBit (phase-1) = true) (hmask : mask < 2^8) :
    Represents { s with phases := phases } { map with phase := mask } tagged :=
  ⟨h.now,h.timer,h.entries,h.sorted,h.pending,h.small,h.last,h.lastSmall,hphases,hmask⟩

theorem represents_setPhase (h : Represents s map tagged) (phase : Nat) :
    Represents (s.apply (.setPhase phase)) (map.setPhase phase) tagged := by
  by_cases hzero : phase = 0
  · simp only [EventMap.setPhase,Schedule.apply,if_pos hzero]
    exact represents_phases h (by simp) (by decide)
  by_cases hle : phase ≤ 8
  · simp only [EventMap.setPhase,Schedule.apply,if_neg hzero,if_pos hle]
    refine represents_phases h (fun phase' => ?_) (mask_bit hle)
    rw [Finset.mem_singleton,Nat.one_shiftLeft,Nat.testBit_two_pow,decide_eq_true_eq]
    omega
  · simp only [EventMap.setPhase,Schedule.apply,if_neg hzero,if_neg hle]
    exact h

theorem represents_addPhase (h : Represents s map tagged) (phase : Nat) :
    Represents (s.apply (.addPhase phase)) (map.addPhase phase) tagged := by
  by_cases hphase : phase ≠ 0 ∧ phase ≤ 8
  · simp only [EventMap.addPhase,Schedule.apply,if_pos hphase]
    refine represents_phases h (fun phase' => ?_) (Nat.or_lt_two_pow h.mask (mask_bit hphase.2))
    rw [Finset.mem_insert,h.phases,Nat.one_shiftLeft,Nat.testBit_or,Nat.testBit_two_pow,
      Bool.or_eq_true,decide_eq_true_eq]
    constructor
    · rintro (rfl | ⟨hne,hle,hbit⟩)
      · exact ⟨hphase.1,hphase.2,.inr rfl⟩
      · exact ⟨hne,hle,.inl hbit⟩
    · rintro ⟨hne,hle,hbit | heq⟩
      · exact .inr ⟨hne,hle,hbit⟩
      · exact .inl (by omega)
  · simp only [EventMap.addPhase,Schedule.apply,if_neg hphase]
    exact h

theorem represents_removePhase (h : Represents s map tagged) (phase : Nat) :
    Represents (s.apply (.removePhase phase)) (map.removePhase phase) tagged := by
  by_cases hphase : phase ≠ 0 ∧ phase ≤ 8
  · simp only [EventMap.removePhase,Schedule.apply,if_pos hphase]
    refine represents_phases h (fun phase' => ?_) (Nat.lt_of_le_of_lt Nat.and_le_left h.mask)
    rw [Finset.mem_erase,h.phases,Nat.one_shiftLeft,Nat.testBit_and,Nat.testBit_xor,
      Nat.testBit_two_pow,show (0xFF : Nat) = 2^8-1 from rfl,Nat.testBit_two_pow_sub_one]
    constructor
    · rintro ⟨hne,hne',hle,hbit⟩
      have hlt : phase'-1 < 8 := by omega
      have hother : ¬ phase-1 = phase'-1 := by omega
      exact ⟨hne',hle,by simp [hbit,hlt,hother]⟩
    · rintro ⟨hne',hle,hbit⟩
      have hlt : phase'-1 < 8 := by omega
      rw [Bool.and_eq_true] at hbit
      refine ⟨?_,hne',hle,hbit.1⟩
      rintro rfl
      simp [hlt] at hbit
  · simp only [EventMap.removePhase,Schedule.apply,if_neg hphase]
    refine represents_phases h (fun phase' => ?_) h.mask
    rw [Finset.mem_erase,h.phases]
    constructor
    · exact And.right
    · intro hmem
      refine ⟨?_,hmem⟩
      rintro rfl
      exact hphase ⟨hmem.1,hmem.2.1⟩

theorem mask_iff (h : Represents s map tagged) : map.phase ≠ 0 ↔ s.phases ≠ ∅ := by
  rw [← Finset.nonempty_iff_ne_empty]
  constructor
  · intro hne
    obtain ⟨i,hbit⟩ := Nat.exists_testBit_of_ne_zero hne
    have hi : i < 8 := by
      by_contra hge
      have := Nat.testBit_lt_two_pow (h.mask.trans_le
        (Nat.pow_le_pow_right (by decide) (not_lt.mp hge)))
      rw [this] at hbit
      exact Bool.false_ne_true hbit
    exact ⟨i+1,(h.phases (i+1)).mpr ⟨by omega,by omega,hbit⟩⟩
  · rintro ⟨phase,hmem⟩ hzero
    obtain ⟨-,-,hbit⟩ := (h.phases phase).mp hmem
    rw [hzero,Nat.zero_testBit] at hbit
    exact Bool.false_ne_true hbit

theorem outOfPhase_iff (h : Represents s map tagged) {o : Occurrence} (ho : o.Small) :
    (map.phase ≠ 0 ∧ o.entry.2 &&& 0xFF000000 ≠ 0 ∧ (o.entry.2 >>> 24) &&& map.phase = 0) ↔
      s.OutOfPhase o := by
  have hmasked := packed_masked ho.id ho.group ho.phase
  have hactive := packed_active ho.id ho.group ho.phase map.phase
  unfold Occurrence.entry Schedule.OutOfPhase
  dsimp only
  rw [mask_iff h,hmasked]
  refine and_congr_right fun _ => and_congr_right fun hphase => ?_
  rw [h.phases,← not_iff_not,not_not]
  refine hactive.trans ⟨fun hbit => ⟨hphase,ho.phase,hbit.2⟩,fun hbit => ⟨hphase,hbit.2.2⟩⟩

/-- Where the loop of an execution ends: at an event that is not due, or with one that is in
phase. -/
theorem executeLoop_cases (h : Represents s map tagged) {l : List Occurrence}
    (hsmall : ∀ o ∈ l, o.Small) : ∃ dropped rest, l = dropped ++ rest ∧
      (∀ d ∈ dropped, d.due ≤ map.time ∧ s.OutOfPhase d) ∧
      ((EventMap.executeLoop map.time map.phase (l.map Occurrence.entry) =
          (rest.map Occurrence.entry,none) ∧ ∀ o, rest.head? = some o → map.time < o.due) ∨
        ∃ o rest', rest = o :: rest' ∧ o.due ≤ map.time ∧ ¬ s.OutOfPhase o ∧
          EventMap.executeLoop map.time map.phase (l.map Occurrence.entry) =
            (rest'.map Occurrence.entry,some o.entry.2)) := by
  induction l with
  | nil => exact ⟨[],[],rfl,by simp,.inl ⟨rfl,by simp⟩⟩
  | cons o l ih =>
    have ho := outOfPhase_iff h (hsmall o List.mem_cons_self)
    rw [List.map_cons,EventMap.executeLoop]
    by_cases hdue : o.entry.1 > map.time
    · refine ⟨[],o :: l,rfl,by simp,.inl ⟨if_pos hdue,fun o' ho' => ?_⟩⟩
      obtain rfl := Option.some.inj ho'
      exact hdue
    · rw [if_neg hdue]
      by_cases hphase : s.OutOfPhase o
      · rw [if_pos (ho.mpr hphase)]
        obtain ⟨dropped,rest,rfl,hdropped,hend⟩ :=
          ih fun o' ho' => hsmall o' (List.mem_cons_of_mem o ho')
        refine ⟨o :: dropped,rest,rfl,fun d hd => ?_,hend⟩
        rcases List.mem_cons.mp hd with rfl | hd
        · exact ⟨not_lt.mp hdue,hphase⟩
        · exact hdropped d hd
      · rw [if_neg fun hboth => hphase (ho.mp hboth)]
        exact ⟨[],o :: l,rfl,by simp,.inr ⟨o,l,rfl,not_lt.mp hdue,hphase,rfl⟩⟩

theorem delay_due {k time now : Nat} {o : Occurrence} (hnow : now = k+time) :
    (o.delay k).due ≤ now ↔ o.due ≤ time := by
  unfold Occurrence.delay
  dsimp only
  omega

theorem refines_executeEvent (h : Represents s map tagged) : ∃ s' tagged',
    s.Step .executeEvent map.executeEvent.2 s' ∧ Represents s' map.executeEvent.1 tagged' := by
  obtain ⟨dropped,rest,rfl,hdropped,hend⟩ := executeLoop_cases h h.small
  have hnow : s.now = (s.now-s.timer)+map.time := by
    have := h.now
    have := h.timer
    omega
  have hsorted := List.pairwise_append.mp h.sorted
  have hpending := h.pending
  rw [List.map_append,← Multiset.coe_add] at hpending
  have hdrops : s.Drops (dropped.map (Occurrence.delay (s.now-s.timer))) := by
    intro d hd
    obtain ⟨d',hd',rfl⟩ := List.mem_map.mp hd
    exact ⟨(delay_due hnow).mpr (hdropped d' hd').1,(hdropped d' hd').2⟩
  unfold EventMap.executeEvent
  rw [h.entries]
  rcases hend with ⟨hloop,hlater⟩ | ⟨o,rest,rfl,hdue,hphase,hloop⟩
  · rw [hloop]
    refine ⟨_,rest,.idle _ _ hpending hdrops ?_,h.now,h.timer,rfl,hsorted.2.1,rfl,
      fun o ho => h.small o (List.mem_append_right _ ho),h.last,h.lastSmall,h.phases,h.mask⟩
    intro r hr
    obtain ⟨r',hr',rfl⟩ := List.mem_map.mp (Multiset.mem_coe.mp hr)
    rw [← not_le,delay_due hnow,not_le]
    cases rest with
    | nil => simp at hr'
    | cons o rest =>
      have hfirst := hlater o rfl
      rcases List.mem_cons.mp hr' with rfl | hr'
      · exact hfirst
      · exact hfirst.trans_le ((List.pairwise_cons.mp hsorted.2.1).1 r' hr')
  · rw [hloop]
    have hsmall := h.small o (List.mem_append_right _ List.mem_cons_self)
    have hid : o.entry.2 &&& 0xFFFF = o.id := packed_id hsmall.id hsmall.group hsmall.phase
    dsimp only
    rw [hid]
    have hrest := List.pairwise_cons.mp hsorted.2.1
    refine ⟨_,rest,.executed _ (o.delay (s.now-s.timer))
      (rest.map (Occurrence.delay (s.now-s.timer)) : List Occurrence) hpending hdrops ?_
        ((delay_due hnow).mpr hdue) hphase ?_,h.now,h.timer,rfl,hrest.2,rfl,
      fun o' ho' => h.small o' (List.mem_append_right _ (List.mem_cons_of_mem o ho')),rfl,
      ⟨hsmall.id,hsmall.group,hsmall.phase⟩,h.phases,h.mask⟩
    · intro d hd
      obtain ⟨d',hd',rfl⟩ := List.mem_map.mp hd
      exact Nat.add_le_add_left (hsorted.2.2 d' hd' o List.mem_cons_self) _
    · intro r hr
      obtain ⟨r',hr',rfl⟩ := List.mem_map.mp (Multiset.mem_coe.mp hr)
      exact Nat.add_le_add_left (hrest.1 r' hr') _

theorem refines_call (h : Represents s map tagged) {call : Call} (hfits : map.Fits call) :
    ∃ s' tagged', s.Step call (map.call call).2 s' ∧ Represents s' (map.call call).1 tagged' := by
  cases call with
  | update time =>
    refine ⟨_,tagged,.call _ (by simp),?_⟩
    have hpending : s.now+time-(s.timer+time) = s.now-s.timer := by omega
    refine ⟨Nat.add_le_add_right h.now time,?_,h.entries,h.sorted,?_,h.small,h.last,h.lastSmall,
      h.phases,h.mask⟩
    · exact (Nat.mod_eq_of_lt hfits).trans (congrArg (· + time) h.timer)
    · change s.pending = (tagged.map (Occurrence.delay (s.now+time-(s.timer+time))) : List _)
      rw [hpending]
      exact h.pending
  | setPhase phase => exact ⟨_,tagged,.call _ (by simp),represents_setPhase h phase⟩
  | addPhase phase => exact ⟨_,tagged,.call _ (by simp),represents_addPhase h phase⟩
  | removePhase phase => exact ⟨_,tagged,.call _ (by simp),represents_removePhase h phase⟩
  | scheduleEvent id time group phase =>
    obtain ⟨-,hid,hgroup,hphase,htime⟩ := hfits
    obtain ⟨tagged',h'⟩ := represents_schedule h hid hgroup hphase htime
    exact ⟨_,tagged',.call _ (by simp),h'⟩
  | rescheduleEvent id time group phase =>
    obtain ⟨-,hid,hgroup,hphase,htime⟩ := hfits
    obtain ⟨tagged',h'⟩ :=
      represents_schedule (represents_cancelEvent h id) hid hgroup hphase htime
    exact ⟨_,tagged',.call _ (by simp),h'⟩
  | repeatEvent time =>
    obtain ⟨hid,hgroup,hphase⟩ := h.lastSmall
    obtain ⟨tagged',h'⟩ := represents_schedule h hid hgroup hphase hfits
    rw [← h.last] at h'
    exact ⟨_,tagged',.call _ (by simp),h'⟩
  | executeEvent => exact refines_executeEvent h
  | delayEvents delay => exact ⟨_,tagged,.call _ (by simp),represents_delayEvents h delay⟩
  | delayEventsGroup delay group =>
    obtain ⟨tagged',h'⟩ := represents_delayEventsGroup h group hfits
    exact ⟨_,tagged',.call _ (by simp),h'⟩
  | cancelEvent id => exact ⟨_,_,.call _ (by simp),represents_cancelEvent h id⟩
  | cancelEventGroup group =>
    obtain ⟨tagged',h'⟩ := represents_cancelEventGroup h group
    exact ⟨_,tagged',.call _ (by simp),h'⟩

theorem refines_run (h : Represents s map tagged) {calls : List Call}
    (hfits : Run.Guarded (fun map call => (map.call call).1) EventMap.Fits map calls) :
    ∃ s' tagged', Schedule.Runs s calls (map.run calls).2 s' ∧
      Represents s' (map.run calls).1 tagged' := by
  induction calls generalizing s map tagged with
  | nil => exact ⟨s,tagged,.nil s,h⟩
  | cons call calls ih =>
    obtain ⟨s₁,tagged₁,hstep,h₁⟩ := refines_call h hfits.1
    obtain ⟨s',tagged',hruns,h'⟩ := ih h₁ hfits.2
    exact ⟨s',tagged',.cons hstep hruns,h'⟩

end Calls

/-- Whatever the calls are, as long as they fit, there is a schedule that returns what the map
returns, that has pending what the map stores, and that keeps the laws. -/
theorem eventMap_refines (calls : List Call)
    (hfits : Run.Guarded (fun map call => (EventMap.call map call).1) EventMap.Fits EventMap.new
      calls) :
    ∃ s tagged, Schedule.Runs Schedule.start calls (EventMap.new.run calls).2 s ∧
      Represents s (EventMap.new.run calls).1 tagged ∧ s.Lawful := by
  obtain ⟨s,tagged,hruns,h⟩ := refines_run represents_start hfits
  exact ⟨s,tagged,hruns,h,lawful_runs hruns ⟨lawful_start,⟨by simp [Schedule.start],
    by simp [Schedule.start]⟩⟩⟩

theorem eventMap_refines_once :
    ∃ s tagged, Schedule.Runs Schedule.start
        [.scheduleEvent 7 3 0 0,.update 5,.executeEvent]
        (EventMap.new.run [.scheduleEvent 7 3 0 0,.update 5,.executeEvent]).2 s ∧
      Represents s (EventMap.new.run [.scheduleEvent 7 3 0 0,.update 5,.executeEvent]).1 tagged ∧
      s.Lawful :=
  eventMap_refines _ ⟨⟨by decide,by decide,by decide,by decide,by decide⟩,(by decide : 0+5 < 2^32),
    trivial,trivial⟩

/-- An event of the first phase is executed although no phase is active. -/
theorem executed_without_phase : ¬ ∃ s,
    Schedule.Runs Schedule.start [.scheduleEvent 1 0 0 1,.executeEvent]
      (EventMap.new.run [.scheduleEvent 1 0 0 1,.executeEvent]).2 s ∧
    ∀ e ∈ s.executed, e.occurrence.phase = 0 ∨ e.occurrence.phase ∈ e.phases := by
  rintro ⟨s,hruns,hall⟩
  generalize hresults : (EventMap.new.run [.scheduleEvent 1 0 0 1,.executeEvent]).2 = results
    at hruns
  rw [show (EventMap.new.run [.scheduleEvent 1 0 0 1,.executeEvent]).2 = [0,1] by decide] at hresults
  cases hruns with
  | cons hschedule hruns =>
    cases hschedule with
    | call _ _ =>
      cases hruns with
      | cons hexecute hruns =>
        cases hruns
        cases hexecute with
        | call _ other => exact other rfl
        | idle => simp at hresults
        | executed dropped o rest pending =>
          have hmem : o ∈ (Schedule.start.apply (.scheduleEvent 1 0 0 1)).pending := by
            rw [pending]
            exact Multiset.mem_add.mpr (.inr (Multiset.mem_cons_self o rest))
          have ho : o = ⟨0,1,0,1,0⟩ := by
            simpa [Schedule.apply,Schedule.schedule,Schedule.start] using hmem
          have hphase := hall _ (List.mem_append_right _ (List.mem_singleton.mpr rfl))
          simp [ho,Schedule.ending,Schedule.apply,Schedule.schedule,Schedule.start] at hphase

end TrinityCore.Utilities
