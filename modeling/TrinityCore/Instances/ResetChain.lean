import TrinityCore.Instances.ResetQueue

set_option autoImplicit false

namespace TrinityCore.Instances

open InstanceSaveManager

section Queue

variable {q : ResetTimeQueue} {t : Int} {e : InstResetEvent}

theorem insert_perm : List.Perm (q.insert t e) ((t,e) :: q) := by
  induction q with
  | nil => exact .refl _
  | cons x q ih =>
    obtain ⟨t',e'⟩ := x
    unfold ResetTimeQueue.insert
    split_ifs
    · exact .refl _
    · exact (ih.cons _).trans (.swap _ _ _)

def Sorted (q : ResetTimeQueue) : Prop := q.Pairwise fun x y => x.1 ≤ y.1

theorem sorted_insert (h : Sorted q) : Sorted (q.insert t e) := by
  induction q with
  | nil => simp [ResetTimeQueue.insert,Sorted]
  | cons x q ih =>
    obtain ⟨t',e'⟩ := x
    obtain ⟨hfirst,hrest⟩ := List.pairwise_cons.mp h
    unfold ResetTimeQueue.insert
    split_ifs with hlt
    · refine List.pairwise_cons.mpr ⟨?_,h⟩
      intro y hy
      rcases List.mem_cons.mp hy with rfl | hy
      · exact hlt.le
      · exact hlt.le.trans (hfirst y hy)
    · refine List.pairwise_cons.mpr ⟨?_,ih hrest⟩
      intro y hy
      rcases List.mem_cons.mp (insert_perm.mem_iff.mp hy) with rfl | hy
      · exact not_lt.mp hlt
      · exact hfirst y hy

theorem tail_insert {t' : Int} {e' : InstResetEvent} :
    (ResetTimeQueue.insert t e ((t',e') :: q)).tail =
      if t < t' then (t',e') :: q else q.insert t e := by
  have hcons : ResetTimeQueue.insert t e ((t',e') :: q) =
      if t < t' then (t,e) :: (t',e') :: q else (t',e') :: q.insert t e := rfl
  rw [hcons]
  split_ifs <;> rfl

end Queue

def MapStore.HasPeriod (D : MapStore) (key : MapDifficulty) : Prop :=
  ∃ delay, delay ≠ 0 ∧ getMapDifficultyData D key = some delay

def isOf (key : MapDifficulty) (x : Int × InstResetEvent) : Bool :=
  x.2.type ≠ 0 ∧ x.2.key = key

def InstanceSaveManager.eventsOf (s : InstanceSaveManager) (key : MapDifficulty) :
    List (Int × InstResetEvent) := s.resetTimeQueue.filter (isOf key)

/-- The time of the event follows from the reset time of its map and difficulty. -/
def InstanceSaveManager.OnTime (s : InstanceSaveManager) (x : Int × InstResetEvent) : Prop :=
  x.1 = (s.resetTimeByMapDifficulty x.2.key : Int)-resetTimeDelay (x.2.type-1)

/-- What holds in the loop of `Update`: events that are late may be off their time. -/
structure InLoop (D : MapStore) (now : Int) (s : InstanceSaveManager) : Prop where
  shape : ∀ x ∈ s.resetTimeQueue, x.2.type ≠ 0 →
    x.2.instanceId = 0 ∧ x.2.type ≤ 4 ∧ D.HasPeriod x.2.key
  one : ∀ key, D.HasPeriod key → s.resetTimeQueue.countP (isOf key) = 1
  sorted : Sorted s.resetTimeQueue
  onTime : ∀ x ∈ s.resetTimeQueue, x.2.type ≠ 0 → s.OnTime x ∨ x.1 < now

/-- The event of a pair is pending: there is one, and it is on time. -/
structure Chain (D : MapStore) (s : InstanceSaveManager) : Prop where
  shape : ∀ x ∈ s.resetTimeQueue, x.2.type ≠ 0 →
    x.2.instanceId = 0 ∧ x.2.type ≤ 4 ∧ D.HasPeriod x.2.key
  one : ∀ key, D.HasPeriod key → s.resetTimeQueue.countP (isOf key) = 1
  sorted : Sorted s.resetTimeQueue
  onTime : ∀ x ∈ s.resetTimeQueue, x.2.type ≠ 0 → s.OnTime x

section Steps

variable {D : MapStore} {s s' : InstanceSaveManager} {now : Nat} {key : MapDifficulty}

theorem Chain.inLoop (h : Chain D s) (now : Int) : InLoop D now s :=
  ⟨h.shape,h.one,h.sorted,fun x hx hx0 => .inl (h.onTime x hx hx0)⟩

theorem lt_getSubsequentResetTime (hkey : D.HasPeriod key) (resetTime : Nat) :
    resetTime+minute < getSubsequentResetTime D key resetTime := by
  obtain ⟨delay,hdelay,hdata⟩ := hkey
  unfold getSubsequentResetTime
  rw [hdata]
  dsimp only
  rw [if_neg hdelay]
  have hperiod : day ≤ period D delay := by
    unfold period
    split_ifs <;> omega
  have hday : day = 86400 := rfl
  rw [hday] at hperiod ⊢
  omega

theorem resetOrWarnAll_reset (hkey : D.HasPeriod key) (hmap : D.instanceable key.1 = true)
    (resetTime : Nat) :
    s.resetOrWarnAll D key false resetTime =
      ⟨Function.update s.resetTimeByMapDifficulty key (getSubsequentResetTime D key resetTime),
        s.resetTimeQueue.insert ((getSubsequentResetTime D key resetTime : Int)-3600)
          ⟨1,key,0⟩⟩ := by
  have hpos : getSubsequentResetTime D key resetTime ≠ 0 := by
    have := lt_getSubsequentResetTime hkey resetTime
    omega
  unfold resetOrWarnAll
  rw [if_neg (by simp [hmap]),if_neg (by simp),if_neg hpos]
  rfl

theorem resetOrWarnAll_warn (resetTime : Nat) : s.resetOrWarnAll D key true resetTime = s := by
  unfold resetOrWarnAll
  split_ifs <;> simp_all

/-- One turn of the loop, for an instance, a warning or a reset. In the last two cases the front is
removed after the next event was inserted. -/
theorem updateStep_cases (hs : InLoop D now s) (hmaps : ∀ key, D.HasPeriod key →
    D.instanceable key.1 = true) (h : updateStep D now s = some s') :
    ∃ t e rest, s.resetTimeQueue = (t,e) :: rest ∧ t < now ∧
      ((e.type = 0 ∧ s' = { s with resetTimeQueue := rest }) ∨
      ∃ t' e' e'', e.type ≠ 0 ∧ e'.key = e.key ∧ e'.instanceId = 0 ∧ e''.key = e.key ∧
        e''.instanceId = 0 ∧ e'.type ≠ 0 ∧ e'.type ≤ 4 ∧ e''.type ≠ 0 ∧ e''.type ≤ 4 ∧
        s'.resetTimeQueue =
          (if t' < t then (t,e'') :: rest else ResetTimeQueue.insert t' e' rest) ∧
        s'.OnTime (t',e') ∧
        (e.type ≠ 4 ∧ s'.resetTimeByMapDifficulty = s.resetTimeByMapDifficulty ∧
            e'.type = e.type+1 ∧ e''.type = e.type+1 ∨
          e.type = 4 ∧ e'.type = 1 ∧ e''.type = 4 ∧
          s.resetTimeByMapDifficulty e.key < s'.resetTimeByMapDifficulty e.key ∧
          ∀ key ≠ e.key, s'.resetTimeByMapDifficulty key = s.resetTimeByMapDifficulty key)) := by
  unfold updateStep at h
  cases hq : s.resetTimeQueue with
  | nil => simp [hq] at h
  | cons x rest =>
    obtain ⟨t,e⟩ := x
    rw [hq] at h
    dsimp only at h
    have hmem : (t,e) ∈ s.resetTimeQueue := by simp [hq]
    split_ifs at h with hlate h0 h4
    · cases h
      exact ⟨t,e,rest,rfl,not_le.mp hlate,.inl ⟨h0,by simp [eraseBegin,hq]⟩⟩
    · obtain ⟨hid,hle,hkey⟩ := hs.shape _ hmem h0
      dsimp only at hid hle hkey
      refine ⟨t,e,rest,rfl,not_le.mp hlate,.inr ?_⟩
      have h4' : e.type ≠ 4 := by simpa using h4
      rw [show (decide (e.type ≠ 4)) = true by simpa using h4',resetOrWarnAll_warn] at h
      obtain rfl := Option.some.inj h
      refine ⟨(s.resetTimeByMapDifficulty e.key : Int)-resetTimeDelay (e.type+1-1),
        { e with type := e.type+1 },{ e with type := e.type+1 },h0,rfl,hid,rfl,hid,
        by simp,?_,by simp,?_,tail_insert,rfl,.inl ⟨h4',rfl,rfl,rfl⟩⟩
      all_goals
        dsimp only
        omega
    · obtain ⟨hid,hle,hkey⟩ := hs.shape _ hmem h0
      dsimp only at hid hle hkey
      have h4' : e.type = 4 := by simpa using h4
      refine ⟨t,e,rest,rfl,not_le.mp hlate,.inr ?_⟩
      rw [show (decide (e.type ≠ 4)) = false by simpa using h4',
        resetOrWarnAll_reset hkey (hmaps _ hkey)] at h
      obtain rfl := Option.some.inj h
      have hlt := lt_getSubsequentResetTime hkey (s.resetTimeByMapDifficulty e.key)
      refine ⟨(getSubsequentResetTime D e.key (s.resetTimeByMapDifficulty e.key) : Int)-3600,
        ⟨1,e.key,0⟩,e,h0,rfl,rfl,rfl,hid,by simp,by simp,h0,hle,?_,?_,
        .inr ⟨h4',rfl,h4',?_,?_⟩⟩
      · simp only [eraseBegin,hq]
        exact tail_insert
      · simp [OnTime,eraseBegin,resetTimeDelay]
      · simp only [eraseBegin,Function.update_self]
        omega
      · intro key hne
        simp [eraseBegin,hne]

theorem updateStep_replaces (hs : InLoop D now s) (hmaps : ∀ key, D.HasPeriod key →
    D.instanceable key.1 = true) (h : updateStep D now s = some s') :
    ∃ t e rest, s.resetTimeQueue = (t,e) :: rest ∧ t < now ∧ Sorted s'.resetTimeQueue ∧
      ((e.type = 0 ∧ s' = { s with resetTimeQueue := rest }) ∨
      ∃ y, s'.resetTimeQueue.Perm (y :: rest) ∧ e.type ≠ 0 ∧ y.2.key = e.key ∧
        y.2.instanceId = 0 ∧ y.2.type ≠ 0 ∧ y.2.type ≤ 4 ∧ (s'.OnTime y ∨ y.1 < now) ∧
        ∀ key ≠ e.key, s'.resetTimeByMapDifficulty key = s.resetTimeByMapDifficulty key) := by
  obtain ⟨t,e,rest,hq,hlate,hturn⟩ := updateStep_cases hs hmaps h
  have hsorted := hs.sorted
  rw [hq] at hsorted
  obtain ⟨hfirst,hrest⟩ := List.pairwise_cons.mp hsorted
  refine ⟨t,e,rest,hq,hlate,?_⟩
  rcases hturn with ⟨h0,rfl⟩ | ⟨t',e',e'',h0,hkey',hid',hkey'',hid'',h0',hle',h0'',hle'',hq',hon,htimes⟩
  · exact ⟨hrest,.inl ⟨h0,rfl⟩⟩
  · have hkeep : ∀ key ≠ e.key,
        s'.resetTimeByMapDifficulty key = s.resetTimeByMapDifficulty key := by
      rcases htimes with ⟨-,heq,-⟩ | ⟨-,-,-,-,heq⟩
      · exact fun key _ => congrFun heq key
      · exact heq
    split_ifs at hq' with hlt
    · rw [hq']
      exact ⟨List.pairwise_cons.mpr ⟨hfirst,hrest⟩,
        .inr ⟨(t,e''),.refl _,h0,hkey'',hid'',h0'',hle'',.inr hlate,hkeep⟩⟩
    · rw [hq']
      exact ⟨sorted_insert hrest,
        .inr ⟨(t',e'),insert_perm,h0,hkey',hid',h0',hle',.inl hon,hkeep⟩⟩

theorem isOf_iff {x : Int × InstResetEvent} : isOf key x = true ↔ x.2.type ≠ 0 ∧ x.2.key = key := by
  simp [isOf]

theorem inLoop_updateStep (hmaps : ∀ key, D.HasPeriod key → D.instanceable key.1 = true)
    (hs : InLoop D now s) (h : updateStep D now s = some s') : InLoop D now s' := by
  obtain ⟨t,e,rest,hq,-,hsorted,hturn⟩ := updateStep_replaces hs hmaps h
  have hshape := hs.shape
  have hone := hs.one
  have hon := hs.onTime
  rw [hq] at hshape hone hon
  rcases hturn with ⟨h0,rfl⟩ | ⟨y,hperm,h0,hkey,hid,hy0,hyle,hyon,hkeep⟩
  · refine ⟨fun x hx => hshape x (List.mem_cons_of_mem _ hx),?_,hsorted,
      fun x hx => hon x (List.mem_cons_of_mem _ hx)⟩
    intro key hkey
    have hcount := hone key hkey
    rwa [List.countP_cons_of_neg (by simp [isOf_iff,h0])] at hcount
  · obtain ⟨-,-,hperiod⟩ := hshape _ List.mem_cons_self h0
    -- the other events are of other pairs, for which the reset time stays
    have hother : ∀ x ∈ rest, x.2.type ≠ 0 → x.2.key ≠ e.key := by
      intro x hx hx0 heq
      have hcount := hone e.key hperiod
      rw [List.countP_cons_of_pos (by simp [isOf_iff,h0])] at hcount
      have hpos : 0 < rest.countP (isOf e.key) :=
        List.countP_pos_iff.mpr ⟨x,hx,isOf_iff.mpr ⟨hx0,heq⟩⟩
      omega
    refine ⟨?_,?_,hsorted,?_⟩
    · intro x hx hx0
      rcases List.mem_cons.mp (hperm.mem_iff.mp hx) with rfl | hx
      · exact ⟨hid,hyle,hkey ▸ hperiod⟩
      · exact hshape x (List.mem_cons_of_mem _ hx) hx0
    · intro key hkey'
      have hcount := hone key hkey'
      rw [hperm.countP_eq]
      rw [List.countP_cons] at hcount ⊢
      have hsame : isOf key y = isOf key (t,e) := by simp [isOf,hkey,hy0,h0]
      rw [hsame]
      exact hcount
    · intro x hx hx0
      rcases List.mem_cons.mp (hperm.mem_iff.mp hx) with rfl | hx
      · exact hyon
      · refine (hon x (List.mem_cons_of_mem _ hx) hx0).imp_left fun htime => ?_
        unfold OnTime
        rw [hkeep _ (hother x hx hx0)]
        exact htime

theorem InLoop.chain (hs : InLoop D now s) (hend : updateStep D now s = none) : Chain D s := by
  refine ⟨hs.shape,hs.one,hs.sorted,fun x hx hx0 => (hs.onTime x hx hx0).resolve_right ?_⟩
  have hsorted := hs.sorted
  unfold updateStep at hend
  cases hq : s.resetTimeQueue with
  | nil => simp [hq] at hx
  | cons y rest =>
    rw [hq] at hend hx hsorted
    have hnow : (now : Int) ≤ y.1 := by
      dsimp only at hend
      split_ifs at hend with hlate
      exact hlate
    rcases List.mem_cons.mp hx with rfl | hx
    · exact not_lt.mpr hnow
    · exact not_lt.mpr (hnow.trans ((List.pairwise_cons.mp hsorted).1 x hx))

def Updates (D : MapStore) (now : Nat) : InstanceSaveManager → InstanceSaveManager → Prop :=
  Loop.Ends (updateStep D now)

theorem chain_update (hmaps : ∀ key, D.HasPeriod key → D.instanceable key.1 = true)
    (hs : Chain D s) (h : Updates D now s s') : Chain D s' :=
  (Loop.Ends.inv (fun _ _ => inLoop_updateStep hmaps) h (hs.inLoop now)).chain h.final

section Termination

def behind (D : MapStore) (now : Nat) (s : InstanceSaveManager) : Nat :=
  ∑ key ∈ (D.difficulties.map Prod.fst).toFinset, (now+3601-s.resetTimeByMapDifficulty key)

/-- The turns that a late event takes until the reset of its pair is over. -/
def turns (now : Nat) (x : Int × InstResetEvent) : Nat := if x.1 < now then 5-x.2.type else 0

def pending (now : Nat) (s : InstanceSaveManager) : Nat := (s.resetTimeQueue.map (turns now)).sum

theorem HasPeriod_mem (h : D.HasPeriod key) : key ∈ (D.difficulties.map Prod.fst).toFinset := by
  obtain ⟨delay,-,hdata⟩ := h
  unfold getMapDifficultyData at hdata
  obtain ⟨before,after,heq,-⟩ := List.lookup_eq_some_iff.mp hdata
  rw [heq]
  simp

theorem behind_mono (h : ∀ key, s.resetTimeByMapDifficulty key ≤ s'.resetTimeByMapDifficulty key) :
    behind D now s' ≤ behind D now s := by
  refine Finset.sum_le_sum fun key _ => ?_
  have := h key
  omega

theorem behind_lt (h : ∀ key, s.resetTimeByMapDifficulty key ≤ s'.resetTimeByMapDifficulty key)
    (hkey : D.HasPeriod key)
    (hlt : s.resetTimeByMapDifficulty key < s'.resetTimeByMapDifficulty key)
    (hnow : s.resetTimeByMapDifficulty key ≤ now+3600) : behind D now s' < behind D now s := by
  refine Finset.sum_lt_sum (fun key _ => ?_) ⟨key,HasPeriod_mem hkey,by omega⟩
  have := h key
  omega

theorem updateStep_decreases (hmaps : ∀ key, D.HasPeriod key → D.instanceable key.1 = true)
    (hs : InLoop D now s) (h : updateStep D now s = some s') :
    toLex (behind D now s',pending now s') < toLex (behind D now s,pending now s) := by
  obtain ⟨t,e,rest,hq,hlate,hturn⟩ := updateStep_cases hs hmaps h
  have hfront : pending now s = (5-e.type)+(rest.map (turns now)).sum := by
    simp [pending,hq,turns,hlate]
  have hshape := hs.shape (t,e) (by simp [hq])
  rcases hturn with ⟨h0,rfl⟩ | ⟨t',e',e'',h0,hkey',-,-,-,-,-,-,-,hq',hon,htimes⟩
  · refine Prod.Lex.right _ ?_
    rw [hfront,h0]
    simp [pending]
  · obtain ⟨-,hle,hperiod⟩ := hshape h0
    have hpending : pending now s' =
        (if t' < t then 5-e''.type else turns now (t',e'))+(rest.map (turns now)).sum := by
      unfold pending
      rw [hq']
      split_ifs
      · simp [turns,hlate]
      · rw [(insert_perm.map _).sum_eq,List.map_cons,List.sum_cons]
    rcases htimes with ⟨h4,heq,htype',htype''⟩ | ⟨h4,htype',htype'',hlt,hkeep⟩
    · have hbehind : behind D now s' = behind D now s := by simp only [behind,heq]
      rw [hbehind]
      refine Prod.Lex.right _ ?_
      rw [hfront,hpending,htype'']
      dsimp only at hle
      have hturns : turns now (t',e') ≤ 5-(e.type+1) := by
        unfold turns
        dsimp only
        rw [htype']
        split_ifs <;> omega
      split_ifs <;> omega
    · have hmono : ∀ key, s.resetTimeByMapDifficulty key ≤ s'.resetTimeByMapDifficulty key := by
        intro key
        by_cases hkey : key = e.key
        · rw [hkey]
          exact hlt.le
        · exact (hkeep key hkey).ge
      by_cases hnow : s.resetTimeByMapDifficulty e.key ≤ now+3600
      · exact Prod.Lex.left _ _ (behind_lt hmono hperiod hlt hnow)
      · -- the next warning lies ahead
        have htime : ¬ t' < now := by
          unfold OnTime at hon
          dsimp only at hon
          rw [hon,hkey',htype']
          simp only [resetTimeDelay]
          omega
        have hpending' : pending now s' < pending now s := by
          rw [hfront,hpending,if_neg (by omega)]
          simp only [turns,htime,if_false]
          omega
        have hbehind : behind D now s' ≤ behind D now s := behind_mono hmono
        rcases hbehind.lt_or_eq with hless | heq
        · exact Prod.Lex.left _ _ hless
        · rw [heq]
          exact Prod.Lex.right _ hpending'

theorem updates_exists (hmaps : ∀ key, D.HasPeriod key → D.instanceable key.1 = true)
    (hs : Chain D s) (now : Nat) : ∃ s', Updates D now s s' := by
  refine Loop.Ends.exists (fun s => toLex (behind D now s,pending now s)) ?_ (hs.inLoop now)
  intro s s' hs h
  exact ⟨inLoop_updateStep hmaps hs h,updateStep_decreases hmaps hs h⟩

end Termination

section Frames

theorem Chain.eventsOf (hs : Chain D s) (hkey : D.HasPeriod key) : ∃ x, s.eventsOf key = [x] := by
  have hcount := hs.one key hkey
  rw [List.countP_eq_length_filter] at hcount
  exact List.length_eq_one_iff.mp hcount

theorem updateStep_eventsOf (hmaps : ∀ key, D.HasPeriod key → D.instanceable key.1 = true)
    (hs : InLoop D now s) (h : updateStep D now s = some s') {x : Int × InstResetEvent}
    (hx : s.eventsOf key = [x]) (hlate : now ≤ x.1) : s'.eventsOf key = [x] := by
  obtain ⟨t,e,rest,hq,hfront,-,hturn⟩ := updateStep_replaces hs hmaps h
  have hne : ¬ isOf key (t,e) = true := by
    intro hof
    have hmem : (t,e) ∈ s.eventsOf key := List.mem_filter.mpr ⟨by simp [hq],hof⟩
    rw [hx,List.mem_singleton] at hmem
    rw [← hmem] at hlate
    exact absurd hfront (not_lt.mpr hlate)
  have hrest : rest.filter (isOf key) = [x] := by
    rw [← hx,InstanceSaveManager.eventsOf,hq,List.filter_cons_of_neg hne]
  rcases hturn with ⟨-,rfl⟩ | ⟨y,hperm,h0,hkey,-,hy0,-⟩
  · exact hrest
  · have hy : ¬ isOf key y = true := by
      simp only [isOf_iff,hkey]
      exact fun h => hne (isOf_iff.mpr ⟨h0,h.2⟩)
    have hfilter := hperm.filter (isOf key)
    rw [List.filter_cons_of_neg hy,hrest] at hfilter
    exact List.perm_singleton.mp hfilter

theorem updates_eventsOf (hmaps : ∀ key, D.HasPeriod key → D.instanceable key.1 = true)
    (hs : Chain D s) (h : Updates D now s s') {x : Int × InstResetEvent}
    (hx : s.eventsOf key = [x]) (hlate : now ≤ x.1) : s'.eventsOf key = [x] := by
  have hstep : ∀ s s', (InLoop D now s ∧ s.eventsOf key = [x]) → updateStep D now s = some s' →
      InLoop D now s' ∧ s'.eventsOf key = [x] := fun s s' hs h =>
    ⟨inLoop_updateStep hmaps hs.1 h,updateStep_eventsOf hmaps hs.1 h hs.2 hlate⟩
  exact (h.inv hstep ⟨hs.inLoop now,hx⟩).2

end Frames

section Force

def cancels (s : InstanceSaveManager) (key : MapDifficulty) : List (Int × InstResetEvent) :=
  (s.resetTimeQueue.find? (s.resetTimeQueue.cancelled 0 (.mk16 1 key 0))).toList ++
    ((s.scheduleReset false 0 (.mk16 1 key 0)).resetTimeQueue.find?
      ((s.scheduleReset false 0 (.mk16 1 key 0)).resetTimeQueue.cancelled 0 (.mk16 4 key 0))).toList

/-- The queue without the events that were cancelled. -/
def afterCancels (s : InstanceSaveManager) (key : MapDifficulty) : InstanceSaveManager :=
  (s.scheduleReset false 0 (.mk16 1 key 0)).scheduleReset false 0 (.mk16 4 key 0)

/-- No event of another pair is cancelled, and the event of the pair itself is. -/
structure CancelsOwn (D : MapStore) (s : InstanceSaveManager) (key : MapDifficulty) : Prop where
  own : ∀ x ∈ cancels s key, x.2.type ≠ 0 → x.2.key = key
  event : D.HasPeriod key → ∃ x ∈ cancels s key, isOf key x = true

/-- `ForceGlobalReset` may be called: the pair it is for, if there is one, is the only one to have
events with instance id 0 in the queue. -/
def ForceAllowed (D : MapStore) (s : InstanceSaveManager) (mapId difficulty : Nat) : Prop :=
  ∀ entry, getDownscaledMapDifficultyData D mapId difficulty = some entry →
    ∀ x ∈ s.resetTimeQueue, x.2.instanceId = 0 → isOf entry.1 x = true

theorem find_perm_eraseP (p : Int × InstResetEvent → Bool) (q : ResetTimeQueue) :
    q.Perm ((q.find? p).toList ++ q.eraseP p) := by
  induction q with
  | nil => exact .refl _
  | cons x q ih =>
    by_cases hp : p x = true
    · simp [hp]
    · rw [List.find?_cons_of_neg hp,List.eraseP_cons_of_neg hp]
      exact (ih.cons x).trans List.perm_middle.symm

theorem cancels_perm (s : InstanceSaveManager) (key : MapDifficulty) : s.resetTimeQueue.Perm
    (cancels s key ++ (afterCancels s key).resetTimeQueue) := by
  have hfirst := find_perm_eraseP (s.resetTimeQueue.cancelled 0 (.mk16 1 key 0)) s.resetTimeQueue
  have hsecond := find_perm_eraseP
    ((s.scheduleReset false 0 (.mk16 1 key 0)).resetTimeQueue.cancelled 0 (.mk16 4 key 0))
    (s.scheduleReset false 0 (.mk16 1 key 0)).resetTimeQueue
  unfold cancels
  rw [List.append_assoc]
  exact hfirst.trans (hsecond.append_left _)

theorem find?_cancelled {q : ResetTimeQueue} {time : Int} {type : Nat} {x : Int × InstResetEvent}
    (h : q.find? (q.cancelled time (.mk16 type key 0)) = some x) : x ∈ q ∧ x.2.instanceId = 0 := by
  have hsame : x.2.same (.mk16 type key 0) = true := by
    have hfound := List.find?_some h
    unfold ResetTimeQueue.cancelled at hfound
    split_ifs at hfound
    · exact (Bool.and_eq_true _ _ ▸ hfound).2
    · exact hfound
  exact ⟨List.mem_of_find?_eq_some h,by simpa [InstResetEvent.same,InstResetEvent.mk16] using hsame⟩

theorem exists_cancelled {q : ResetTimeQueue} {x : Int × InstResetEvent} (hx : x ∈ q)
    (h0 : x.2.instanceId = 0) (time : Int) (type : Nat) (key : MapDifficulty) :
    ∃ y, q.find? (q.cancelled time (.mk16 type key 0)) = some y := by
  refine Option.isSome_iff_exists.mp (List.find?_isSome.mpr ?_)
  have hsame : x.2.same (.mk16 type key 0) = true := by simp [InstResetEvent.same,InstResetEvent.mk16,h0]
  unfold ResetTimeQueue.cancelled
  split_ifs with hany
  · exact List.any_eq_true.mp hany
  · exact ⟨x,hx,hsame⟩

theorem cancelsOwn_of_only (hs : Chain D s)
    (h : ∀ x ∈ s.resetTimeQueue, x.2.instanceId = 0 → isOf key x = true) : CancelsOwn D s key := by
  constructor
  · intro x hx _
    have hmem : x ∈ s.resetTimeQueue ∧ x.2.instanceId = 0 := by
      rcases List.mem_append.mp hx with hx | hx
      · exact find?_cancelled (Option.mem_toList.mp hx)
      · exact (find?_cancelled (Option.mem_toList.mp hx)).imp_left fun hm => List.mem_of_mem_eraseP hm
    exact (isOf_iff.mp (h x hmem.1 hmem.2)).2
  · intro hkey
    obtain ⟨x,hx,hof⟩ := List.countP_pos_iff.mp (by rw [hs.one key hkey]; exact Nat.one_pos)
    obtain ⟨y,hy⟩ := exists_cancelled hx (hs.shape x hx (isOf_iff.mp hof).1).1 0 1 key
    obtain ⟨hmem,h0⟩ := find?_cancelled hy
    exact ⟨y,List.mem_append_left _ (Option.mem_toList.mpr hy),h y hmem h0⟩

/-- With an event of instance id 0 that is not the pair's own, one such is cancelled: only one of
the two cancellations can take the event of the pair. -/
theorem cancels_other (hs : Chain D s) {x : Int × InstResetEvent} (hx : x ∈ s.resetTimeQueue)
    (h0 : x.2.instanceId = 0) (hof : isOf key x = false) :
    ∃ y ∈ cancels s key, isOf key y = false := by
  obtain ⟨y,hy⟩ := exists_cancelled hx h0 0 1 key
  by_cases hyof : isOf key y = true
  · have herase : x ∈ (s.scheduleReset false 0 (.mk16 1 key 0)).resetTimeQueue := by
      have hperm := find_perm_eraseP (s.resetTimeQueue.cancelled 0 (.mk16 1 key 0)) s.resetTimeQueue
      rw [hy] at hperm
      refine (List.mem_cons.mp (hperm.mem_iff.mp hx)).resolve_left ?_
      rintro rfl
      rw [hof] at hyof
      cases hyof
    obtain ⟨z,hz⟩ := exists_cancelled herase h0 0 4 key
    refine ⟨z,List.mem_append_right _ (Option.mem_toList.mpr hz),?_⟩
    by_contra hzof
    -- the pair had one event only, which the first cancellation has taken
    have hzof : isOf key z = true := by simpa using hzof
    obtain ⟨hzmem,-⟩ := find?_cancelled hz
    have hymem := (find?_cancelled hy).1
    have hkey : D.HasPeriod key := by
      have hshape := hs.shape y hymem (isOf_iff.mp hyof).1
      rw [← (isOf_iff.mp hyof).2]
      exact hshape.2.2
    have hcount := hs.one key hkey
    rw [(find_perm_eraseP (s.resetTimeQueue.cancelled 0 (.mk16 1 key 0)) s.resetTimeQueue).countP_eq,
      hy,List.countP_append] at hcount
    have hfirst : 0 < (some y).toList.countP (isOf key) := by simp [hyof]
    have hsecond : 0 < (s.resetTimeQueue.eraseP
        (s.resetTimeQueue.cancelled 0 (.mk16 1 key 0))).countP (isOf key) :=
      List.countP_pos_iff.mpr ⟨z,hzmem,hzof⟩
    omega
  · exact ⟨y,List.mem_append_left _ (Option.mem_toList.mpr hy),by simpa using hyof⟩

theorem sorted_afterCancels (h : Sorted s.resetTimeQueue) :
    Sorted (afterCancels s key).resetTimeQueue :=
  List.Pairwise.sublist (List.eraseP_sublist.trans List.eraseP_sublist) h

theorem mem_afterCancels {x : Int × InstResetEvent}
    (h : x ∈ (afterCancels s key).resetTimeQueue) : x ∈ s.resetTimeQueue :=
  (cancels_perm s key).mem_iff.mpr (List.mem_append_right _ h)

theorem eventsOf_afterCancels (hcancel : CancelsOwn D s key) {other : MapDifficulty}
    (hother : other ≠ key) : ((afterCancels s key).eventsOf other).Perm (s.eventsOf other) := by
  have hnone : (cancels s key).filter (isOf other) = [] := by
    rw [List.filter_eq_nil_iff]
    intro x hx hof
    obtain ⟨h0,hkey⟩ := isOf_iff.mp hof
    exact hother (hkey.symm.trans (hcancel.own x hx h0))
  have hperm := (cancels_perm s key).filter (isOf other)
  rw [List.filter_append,hnone,List.nil_append] at hperm
  exact hperm.symm

theorem count_afterCancels (hs : Chain D s) (hcancel : CancelsOwn D s key)
    (hkey : D.HasPeriod key) : (afterCancels s key).resetTimeQueue.countP (isOf key) = 0 := by
  have hcount := hs.one key hkey
  rw [(cancels_perm s key).countP_eq,List.countP_append] at hcount
  obtain ⟨x,hx,hof⟩ := hcancel.event hkey
  have hpos : 0 < (cancels s key).countP (isOf key) := List.countP_pos_iff.mpr ⟨x,hx,hof⟩
  omega

theorem resetOrWarnAll_noPeriod {delay : Nat} (hdata : getMapDifficultyData D key = some delay)
    (hkey : ¬ D.HasPeriod key) (resetTime : Nat) :
    s.resetOrWarnAll D key false resetTime = s := by
  have hdelay : delay = 0 := by
    by_contra hne
    exact hkey ⟨delay,hne,hdata⟩
  unfold resetOrWarnAll getSubsequentResetTime
  rw [hdata]
  simp [hdelay]

theorem getDownscaled_data {mapId difficulty : Nat} {entry : MapDifficulty × Nat}
    (h : getDownscaledMapDifficultyData D mapId difficulty = some entry) :
    getMapDifficultyData D entry.1 = some entry.2 := by
  unfold getDownscaledMapDifficultyData at h
  split at h
  · rename_i hdata
    cases h
    exact hdata
  · dsimp only at h
    generalize (if difficulty > 1 then difficulty-2 else (difficulty+2^32-1)%2^32) = lower at h
    split at h
    · rename_i hdata
      cases h
      exact hdata
    · obtain ⟨delay,hdata,rfl⟩ := Option.map_eq_some_iff.mp h
      exact hdata

theorem chain_force (hmaps : ∀ key, D.HasPeriod key → D.instanceable key.1 = true)
    (hs : Chain D s) {mapId difficulty : Nat} (hallowed : ForceAllowed D s mapId difficulty)
    (now : Nat) : Chain D (s.forceGlobalReset D mapId difficulty now) ∧
      ∀ other, (∀ entry, getDownscaledMapDifficultyData D mapId difficulty = some entry →
        entry.1 ≠ other) →
        ((s.forceGlobalReset D mapId difficulty now).eventsOf other).Perm (s.eventsOf other) := by
  cases hdown : getDownscaledMapDifficultyData D mapId difficulty with
  | none =>
    have hnone : s.forceGlobalReset D mapId difficulty now = s := by simp [forceGlobalReset,hdown]
    rw [hnone]
    exact ⟨hs,fun _ _ => .refl _⟩
  | some entry =>
    obtain ⟨key,delay⟩ := entry
    have hcancel : CancelsOwn D s key := cancelsOwn_of_only hs (hallowed _ hdown)
    have hdata : getMapDifficultyData D key = some delay := getDownscaled_data hdown
    have hforce : s.forceGlobalReset D mapId difficulty now =
        (afterCancels s key).resetOrWarnAll D key false now := by simp [forceGlobalReset,hdown,
          afterCancels]
    rw [hforce]
    have hother : ∀ other ≠ key, (afterCancels s key).resetTimeQueue.countP (isOf other) =
        s.resetTimeQueue.countP (isOf other) := by
      intro other hne
      have hlength := (eventsOf_afterCancels hcancel hne).length_eq
      rwa [InstanceSaveManager.eventsOf,InstanceSaveManager.eventsOf,
        ← List.countP_eq_length_filter,← List.countP_eq_length_filter] at hlength
    by_cases hkey : D.HasPeriod key
    · have hzero := count_afterCancels hs hcancel hkey
      have hne : ∀ x ∈ (afterCancels s key).resetTimeQueue, x.2.type ≠ 0 → x.2.key ≠ key := by
        intro x hx h0 heq
        exact List.countP_eq_zero.mp hzero x hx (isOf_iff.mpr ⟨h0,heq⟩)
      rw [resetOrWarnAll_reset hkey (hmaps key hkey)]
      refine ⟨⟨?_,?_,sorted_insert (sorted_afterCancels hs.sorted),?_⟩,?_⟩
      · intro x hx h0
        rcases List.mem_cons.mp (insert_perm.mem_iff.mp hx) with rfl | hx
        · exact ⟨rfl,by simp,hkey⟩
        · exact hs.shape x (mem_afterCancels hx) h0
      · intro other hperiod
        rw [insert_perm.countP_eq,List.countP_cons]
        by_cases heq : other = key
        · subst heq
          rw [hzero]
          simp [isOf]
        · rw [hother other heq,hs.one other hperiod]
          simp [isOf,Ne.symm heq]
      · intro x hx h0
        rcases List.mem_cons.mp (insert_perm.mem_iff.mp hx) with rfl | hx
        · simp [OnTime,resetTimeDelay]
        · have htime := hs.onTime x (mem_afterCancels hx) h0
          unfold OnTime at htime ⊢
          dsimp only
          rw [Function.update_of_ne (hne x hx h0)]
          exact htime
      · intro other hdiff
        have hne' : other ≠ key := fun heq => hdiff _ rfl heq.symm
        refine (insert_perm.filter (isOf other)).trans ?_
        rw [List.filter_cons_of_neg (by simp [isOf,Ne.symm hne'])]
        exact eventsOf_afterCancels hcancel hne'
    · rw [resetOrWarnAll_noPeriod hdata hkey]
      refine ⟨⟨fun x hx => hs.shape x (mem_afterCancels hx),?_,sorted_afterCancels hs.sorted,
        fun x hx => hs.onTime x (mem_afterCancels hx)⟩,?_⟩
      · intro other hperiod
        rw [hother other (fun heq => hkey (heq ▸ hperiod)),hs.one other hperiod]
      · exact fun other hdiff => eventsOf_afterCancels hcancel fun heq => hdiff _ rfl heq.symm

/-- The forced reset leaves every event that is not the pair's own just when it is allowed. -/
theorem force_keeps_iff (hs : Chain D s) {mapId difficulty : Nat} {entry : MapDifficulty × Nat}
    (hdown : getDownscaledMapDifficultyData D mapId difficulty = some entry) (now : Nat) :
    (∀ x, isOf entry.1 x = false →
      (s.forceGlobalReset D mapId difficulty now).resetTimeQueue.count x =
        s.resetTimeQueue.count x) ↔ ForceAllowed D s mapId difficulty := by
  obtain ⟨key,delay⟩ := entry
  have hcount : ∀ x, isOf key x = false →
      (s.forceGlobalReset D mapId difficulty now).resetTimeQueue.count x =
        (afterCancels s key).resetTimeQueue.count x := by
    intro x hx
    have hforce : s.forceGlobalReset D mapId difficulty now =
        (afterCancels s key).resetOrWarnAll D key false now := by simp [forceGlobalReset,hdown,
          afterCancels]
    rw [hforce]
    unfold resetOrWarnAll
    simp only [Bool.false_eq_true,if_false]
    split_ifs
    · rfl
    · rfl
    · refine insert_perm.count_eq x |>.trans (List.count_cons_of_ne ?_)
      rintro rfl
      simp [isOf,InstResetEvent.mk16] at hx
  have hsplit : ∀ x, s.resetTimeQueue.count x =
      (cancels s key).count x+(afterCancels s key).resetTimeQueue.count x := fun x => by
    rw [(cancels_perm s key).count_eq,List.count_append]
  constructor
  · intro hkeep entry' hdown'
    obtain rfl := Option.some.inj (hdown.symm.trans hdown')
    intro x hx h0
    by_contra hof
    obtain ⟨y,hy,hyof⟩ := cancels_other hs hx h0 (by simpa using hof)
    have hsame := hkeep y hyof
    have hpos := List.count_pos_iff.mpr hy
    rw [hcount y hyof,hsplit y] at hsame
    omega
  · intro hallowed x hx
    have hnone : (cancels s key).count x = 0 := by
      refine List.count_eq_zero.mpr fun hmem => ?_
      have hown : x ∈ s.resetTimeQueue ∧ x.2.instanceId = 0 := by
        rcases List.mem_append.mp hmem with hmem | hmem
        · exact find?_cancelled (Option.mem_toList.mp hmem)
        · exact (find?_cancelled (Option.mem_toList.mp hmem)).imp_left
            fun hm => List.mem_of_mem_eraseP hm
      rw [hallowed _ hdown x hown.1 hown.2] at hx
      cases hx
    rw [hcount x hx,hsplit x,hnone,Nat.zero_add]

end Force

section Load

variable {rows : ResetRows}

def ResetRows.Apart (D : MapStore) (rows : ResetRows) : Prop :=
  ∀ row ∈ rows.instances, row.resettime ≠ 0 → ¬ D.HasPeriod row.key

/-- The queue while the pairs are loaded: the pairs before have their events. -/
structure Loaded (D : MapStore) (before : List MapDifficulty) (s : InstanceSaveManager) : Prop where
  shape : ∀ x ∈ s.resetTimeQueue, x.2.type ≠ 0 →
    x.2.instanceId = 0 ∧ x.2.type ≤ 4 ∧ D.HasPeriod x.2.key ∧ x.2.key ∈ before
  one : ∀ key ∈ before, D.HasPeriod key → s.resetTimeQueue.countP (isOf key) = 1
  sorted : Sorted s.resetTimeQueue
  onTime : ∀ x ∈ s.resetTimeQueue, x.2.type ≠ 0 → s.OnTime x

theorem hasPeriod_iff {entry : MapDifficulty × Nat} (h : entry ∈ D.difficulties) :
    D.HasPeriod entry.1 ↔ entry.2 ≠ 0 := by
  obtain ⟨before,after,heq⟩ := List.append_of_mem h
  have hdata : getMapDifficultyData D entry.1 = some entry.2 := by
    refine List.lookup_eq_some_iff.mpr ⟨before,after,heq,?_⟩
    intro other hother
    have hnodup := D.nodup
    rw [heq,List.map_append,List.nodup_append] at hnodup
    have hne := hnodup.2.2 other.1 (List.mem_map_of_mem hother) entry.1 (by simp)
    simpa using hne.symm
  constructor
  · rintro ⟨delay,hdelay,hdata'⟩
    rw [hdata] at hdata'
    cases hdata'
    exact hdelay
  · exact fun h0 => ⟨_,h0,hdata⟩

theorem startType_spec (now t : Nat) : startType now t ≠ 0 ∧ startType now t ≤ 4 := by
  unfold startType
  split_ifs <;> simp

theorem loaded_difficulty {before : List MapDifficulty} {entry : MapDifficulty × Nat}
    (hrows : rows.Apart D) (hentry : entry ∈ D.difficulties) (hnew : entry.1 ∉ before)
    (hs : Loaded D before s) : Loaded D (before ++ [entry.1]) (loadDifficulty D rows now s entry) := by
  unfold loadDifficulty
  by_cases h0 : entry.2 = 0
  · rw [if_pos h0]
    have hno : ¬ D.HasPeriod entry.1 := by simp [hasPeriod_iff hentry,h0]
    refine ⟨?_,?_,hs.sorted,hs.onTime⟩
    · intro x hx hx0
      obtain ⟨hid,hle,hkey,hmem⟩ := hs.shape x hx hx0
      exact ⟨hid,hle,hkey,List.mem_append_left _ hmem⟩
    · intro key hkey hperiod
      rcases List.mem_append.mp hkey with hkey | hkey
      · exact hs.one key hkey hperiod
      · rw [List.mem_singleton.mp hkey] at hperiod
        exact absurd hperiod hno
  · rw [if_neg h0]
    have hperiod : D.HasPeriod entry.1 := (hasPeriod_iff hentry).mpr h0
    have hbound : rows.instances.filter (fun row => row.resettime ≠ 0 ∧ row.key = entry.1) = [] := by
      rw [List.filter_eq_nil_iff]
      intro row hrow hmatch
      simp only [decide_eq_true_eq] at hmatch
      exact hrows row hrow hmatch.1 (hmatch.2 ▸ hperiod)
    dsimp only
    rw [hbound,List.foldl_nil]
    obtain ⟨htype0,htype4⟩ := startType_spec now
      (startTime D now entry.2 (s.resetTimeByMapDifficulty entry.1))
    generalize startTime D now entry.2 (s.resetTimeByMapDifficulty entry.1) = t at htype0 htype4 ⊢
    generalize startType now t = type at htype0 htype4 ⊢
    refine ⟨?_,?_,sorted_insert hs.sorted,?_⟩
    · intro x hx hx0
      rcases List.mem_cons.mp (insert_perm.mem_iff.mp hx) with rfl | hx
      · exact ⟨rfl,htype4,hperiod,by simp [InstResetEvent.mk16]⟩
      · obtain ⟨hid,hle,hkey,hmem⟩ := hs.shape x hx hx0
        exact ⟨hid,hle,hkey,List.mem_append_left _ hmem⟩
    · intro key hkey hperiod'
      have hcount : ((s.setResetTimeFor entry.1 t).scheduleReset true
          ((t : Int)-resetTimeDelay (type-1)) (.mk16 type entry.1 0)).resetTimeQueue.countP (isOf key) =
          s.resetTimeQueue.countP (isOf key)+if entry.1 = key then 1 else 0 := by
        refine (insert_perm.countP_eq (isOf key)).trans ?_
        rw [List.countP_cons]
        by_cases heq : entry.1 = key <;> simp [isOf,InstResetEvent.mk16,setResetTimeFor,heq,htype0]
      rw [hcount]
      rcases List.mem_append.mp hkey with hkey | hkey
      · rw [hs.one key hkey hperiod',if_neg]
        rintro rfl
        exact hnew hkey
      · obtain rfl := List.mem_singleton.mp hkey
        have hzero : s.resetTimeQueue.countP (isOf entry.1) = 0 := by
          rw [List.countP_eq_zero]
          intro x hx hof
          obtain ⟨hx0,hxkey⟩ := isOf_iff.mp hof
          exact hnew (hxkey ▸ (hs.shape x hx hx0).2.2.2)
        rw [hzero,if_pos rfl]
    · intro x hx hx0
      rcases List.mem_cons.mp (insert_perm.mem_iff.mp hx) with rfl | hx
      · simp [OnTime,scheduleReset,setResetTimeFor,InstResetEvent.mk16]
      · have hne : x.2.key ≠ entry.1 := fun heq => hnew (heq ▸ (hs.shape x hx hx0).2.2.2)
        have htime := hs.onTime x hx hx0
        unfold OnTime at htime ⊢
        simp only [scheduleReset,setResetTimeFor,if_true]
        rw [Function.update_of_ne hne]
        exact htime

theorem loaded_difficulties {before todo : List (MapDifficulty × Nat)} (hrows : rows.Apart D)
    (hall : D.difficulties = before ++ todo) (hs : Loaded D (before.map Prod.fst) s) :
    Loaded D (D.difficulties.map Prod.fst) (todo.foldl (loadDifficulty D rows now) s) := by
  induction todo generalizing before s with
  | nil =>
    rw [hall,List.append_nil]
    exact hs
  | cons entry todo ih =>
    have hnodup := D.nodup
    rw [hall,List.map_append,List.nodup_append] at hnodup
    have hnew : entry.1 ∉ before.map Prod.fst :=
      fun hmem => hnodup.2.2 entry.1 hmem entry.1 (by simp) rfl
    have hstep : Loaded D (before.map Prod.fst ++ [entry.1]) (loadDifficulty D rows now s entry) :=
      loaded_difficulty hrows (by simp [hall]) hnew hs
    have hall' : D.difficulties = (before ++ [entry]) ++ todo := by simp [hall]
    refine ih hall' ?_
    simpa using hstep

theorem loaded_instances (rows : ResetRows) (now : Nat) : Loaded D []
    (rows.resets.foldl (loadReset D)
      (rows.instResetTime.foldl (loadInstance now) ⟨fun _ => 0,[]⟩)) := by
  have hinstances : ∀ (timed : List InstanceRow) (s : InstanceSaveManager),
      Sorted s.resetTimeQueue → (∀ x ∈ s.resetTimeQueue, x.2.type = 0) →
      Sorted (timed.foldl (loadInstance now) s).resetTimeQueue ∧
        ∀ x ∈ (timed.foldl (loadInstance now) s).resetTimeQueue, x.2.type = 0 := by
    intro timed
    induction timed with
    | nil => exact fun s hsorted hzero => ⟨hsorted,hzero⟩
    | cons row timed ih =>
      intro s hsorted hzero
      rw [List.foldl_cons]
      unfold loadInstance
      split_ifs
      · refine ih _ (sorted_insert hsorted) ?_
        intro x hx
        rcases List.mem_cons.mp (insert_perm.mem_iff.mp hx) with rfl | hx
        · rfl
        · exact hzero x hx
      · exact ih s hsorted hzero
  have hresets : ∀ (resets : List (MapDifficulty × Nat)) (s : InstanceSaveManager),
      (resets.foldl (loadReset D) s).resetTimeQueue = s.resetTimeQueue := by
    intro resets
    induction resets with
    | nil => exact fun _ => rfl
    | cons row resets ih =>
      intro s
      rw [List.foldl_cons,ih]
      unfold loadReset
      split <;> rfl
  obtain ⟨hsorted,hzero⟩ := hinstances rows.instResetTime ⟨fun _ => 0,[]⟩ .nil (by simp)
  rw [← hresets rows.resets] at hsorted hzero
  exact ⟨fun x hx h0 => absurd (hzero x hx) h0,by simp,hsorted,
    fun x hx h0 => absurd (hzero x hx) h0⟩

theorem chain_load (hrows : rows.Apart D) : Chain D (loadResetTimes D rows now) := by
  have hall : D.difficulties = [] ++ D.difficulties := rfl
  have hloaded : Loaded D (D.difficulties.map Prod.fst) (loadResetTimes D rows now) :=
    loaded_difficulties hrows hall (loaded_instances rows now)
  refine ⟨?_,?_,hloaded.sorted,hloaded.onTime⟩
  · intro x hx h0
    obtain ⟨hid,hle,hkey,-⟩ := hloaded.shape x hx h0
    exact ⟨hid,hle,hkey⟩
  · intro key hkey
    exact hloaded.one key (List.mem_toFinset.mp (HasPeriod_mem hkey)) hkey

end Load

inductive ResetStep (D : MapStore) : InstanceSaveManager → InstanceSaveManager → Prop where
  | update {s s' : InstanceSaveManager} (now : Nat) : Updates D now s s' → ResetStep D s s'
  | force {s : InstanceSaveManager} (mapId difficulty now : Nat) :
      ForceAllowed D s mapId difficulty → ResetStep D s (s.forceGlobalReset D mapId difficulty now)

theorem chain_reachable {rows : ResetRows} (hrows : rows.Apart D)
    (hmaps : ∀ key, D.HasPeriod key → D.instanceable key.1 = true)
    (h : Relation.ReflTransGen (ResetStep D) (loadResetTimes D rows now) s) : Chain D s := by
  induction h with
  | refl => exact chain_load hrows
  | tail _ hstep ih =>
    cases hstep with
    | update now hupdate => exact chain_update hmaps ih hupdate
    | force mapId difficulty now hallowed => exact (chain_force hmaps ih hallowed now).1

/-- Each pair with a period has exactly one event, on time. `Update` ends, and neither it nor a
forced reset touches the events that are not late or of other pairs. A forced reset that is not
allowed takes an event that is not the pair's own. -/
theorem reset_chain {rows : ResetRows} (hrows : rows.Apart D)
    (hmaps : ∀ key, D.HasPeriod key → D.instanceable key.1 = true)
    (h : Relation.ReflTransGen (ResetStep D) (loadResetTimes D rows now) s) :
    (∀ key, D.HasPeriod key → ∃ x, s.resetTimeQueue.filter (fun x => x.2.instanceId = 0 ∧
        1 ≤ x.2.type ∧ x.2.type ≤ 4 ∧ x.2.key = key) = [x] ∧
      x.1 = (s.resetTimeByMapDifficulty key : Int)-resetTimeDelay (x.2.type-1)) ∧
    (∀ now', ∃ s', Updates D now' s s' ∧ ∀ key x, s.eventsOf key = [x] → (now' : Int) ≤ x.1 →
      s'.eventsOf key = [x]) ∧
    (∀ mapId difficulty now', ForceAllowed D s mapId difficulty → ∀ other, D.HasPeriod other →
      (∀ entry, getDownscaledMapDifficultyData D mapId difficulty = some entry →
        entry.1 ≠ other) →
      (s.forceGlobalReset D mapId difficulty now').eventsOf other = s.eventsOf other) ∧
    (∀ mapId difficulty now' entry,
      getDownscaledMapDifficultyData D mapId difficulty = some entry →
      ((∀ x, isOf entry.1 x = false →
        (s.forceGlobalReset D mapId difficulty now').resetTimeQueue.count x =
          s.resetTimeQueue.count x) ↔ ForceAllowed D s mapId difficulty)) := by
  have hs : Chain D s := chain_reachable hrows hmaps h
  refine ⟨?_,?_,?_,fun _ _ now' _ hdown => force_keeps_iff hs hdown now'⟩
  · intro key hkey
    obtain ⟨x,hx⟩ := hs.eventsOf hkey
    have hmem : x ∈ s.eventsOf key := by simp [hx]
    obtain ⟨hqueue,hof⟩ := List.mem_filter.mp hmem
    obtain ⟨h0,hxkey⟩ := isOf_iff.mp hof
    refine ⟨x,?_,?_⟩
    · rw [← hx]
      refine List.filter_congr fun y hy => ?_
      unfold isOf
      by_cases hy0 : y.2.type = 0
      · simp [hy0]
      · obtain ⟨hid,hle,-⟩ := hs.shape y hy hy0
        have hpos : 1 ≤ y.2.type := Nat.one_le_iff_ne_zero.mpr hy0
        simp [hid,hle,hy0,hpos]
    · have htime := hs.onTime x hqueue h0
      unfold OnTime at htime
      rwa [hxkey] at htime
  · intro now'
    obtain ⟨s',hupdate⟩ := updates_exists hmaps hs now'
    exact ⟨s',hupdate,fun key x hx hlate => updates_eventsOf hmaps hs hupdate hx hlate⟩
  · intro mapId difficulty now' hallowed other hother hdiff
    obtain ⟨x,hx⟩ := hs.eventsOf hother
    have hperm := (chain_force hmaps hs hallowed now').2 other hdiff
    rw [hx] at hperm ⊢
    exact List.perm_singleton.mp hperm

end Steps

section Raids

def twoRaids : MapStore where
  difficulties := [((533,0),7*day),((603,0),7*day)]
  nodup := by decide
  instanceable _ := true
  scaled resetTime := resetTime
  resetTimeHour := 4

def noRows : ResetRows := ⟨[],[],[]⟩

theorem reset_chain_broken : ¬ ∃ x, ((loadResetTimes twoRaids noRows 1000000).forceGlobalReset
    twoRaids 533 0 1000100).resetTimeQueue.filter (fun x => x.2.instanceId = 0 ∧
      1 ≤ x.2.type ∧ x.2.type ≤ 4 ∧ x.2.key = (603,0)) = [x] := by
  have hnone : ((loadResetTimes twoRaids noRows 1000000).forceGlobalReset
      twoRaids 533 0 1000100).resetTimeQueue.filter (fun x => x.2.instanceId = 0 ∧
        1 ≤ x.2.type ∧ x.2.type ≤ 4 ∧ x.2.key = (603,0)) = [] := by
    decide +kernel
  rintro ⟨x,hx⟩
  rw [hnone] at hx
  simp at hx

def oneRaid : MapStore where
  difficulties := [((533,0),7*day)]
  nodup := by decide
  instanceable _ := true
  scaled resetTime := resetTime
  resetTimeHour := 4

theorem oneRaid_forceAllowed :
    ForceAllowed oneRaid (loadResetTimes oneRaid noRows 1000000) 533 0 := by
  intro entry hentry
  have hdata : getDownscaledMapDifficultyData oneRaid 533 0 = some ((533,0),7*day) := by
    decide +kernel
  obtain rfl := Option.some.inj (hdata.symm.trans hentry)
  have hall : ∀ x ∈ (loadResetTimes oneRaid noRows 1000000).resetTimeQueue,
      isOf (533,0) x = true := by
    decide +kernel
  exact fun x hx _ => hall x hx

theorem reset_chain_oneRaid :
    ∃ x, ((loadResetTimes oneRaid noRows 1000000).forceGlobalReset oneRaid 533 0
      1000100).resetTimeQueue.filter (fun x => x.2.instanceId = 0 ∧
        1 ≤ x.2.type ∧ x.2.type ≤ 4 ∧ x.2.key = (533,0)) = [x] := by
  have hkey : oneRaid.HasPeriod (533,0) := ⟨7*day,by decide,rfl⟩
  have hreach : Relation.ReflTransGen (ResetStep oneRaid) (loadResetTimes oneRaid noRows 1000000)
      ((loadResetTimes oneRaid noRows 1000000).forceGlobalReset oneRaid 533 0 1000100) :=
    .single (.force 533 0 1000100 oneRaid_forceAllowed)
  obtain ⟨x,hx,-⟩ := (reset_chain (by simp [ResetRows.Apart,noRows]) (fun _ _ => rfl) hreach).1
    (533,0) hkey
  exact ⟨x,hx⟩

end Raids

end TrinityCore.Instances
