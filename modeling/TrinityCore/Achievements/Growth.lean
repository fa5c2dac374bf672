import TrinityCore.Achievements.Completion

set_option autoImplicit false

namespace TrinityCore.Achievements

namespace AchievementMgr

variable {A : AchievementGlobalMgr} {m m' m'' : AchievementMgr} {entry : AchievementEntry}
  {cList cList' : List AchievementCriteriaEntry} {criteria c : AchievementCriteriaEntry}

section Growth

def Grows (m m' : AchievementMgr) : Prop :=
  ∀ id progress, m.criteriaProgress id = some progress →
    ∃ progress', m'.criteriaProgress id = some progress' ∧ progress.counter ≤ progress'.counter

theorem Grows.refl (m : AchievementMgr) : Grows m m :=
  fun _ progress h => ⟨progress,h,UInt32.le_refl _⟩

theorem Grows.trans (h : Grows m m') (h' : Grows m' m'') : Grows m m'' := by
  intro id progress hprogress
  obtain ⟨progress',hprogress',hle⟩ := h id progress hprogress
  obtain ⟨progress'',hprogress'',hle'⟩ := h' id progress' hprogress'
  exact ⟨progress'',hprogress'',UInt32.le_trans hle hle'⟩

theorem Grows.hasProgress (h : Grows m m') (hhas : m.HasProgress c) : m'.HasProgress c := by
  obtain ⟨progress,hprogress⟩ := Option.ne_none_iff_exists'.mp hhas
  obtain ⟨progress',hprogress',-⟩ := h c.ID progress hprogress
  exact Option.ne_none_iff_exists'.mpr ⟨progress',hprogress'⟩

theorem Grows.counterOf_le (h : Grows m m') (c : AchievementCriteriaEntry) :
    m.counterOf c ≤ m'.counterOf c := by
  unfold counterOf
  cases hprogress : m.criteriaProgress c.ID with
  | none => exact Nat.zero_le _
  | some progress =>
    obtain ⟨progress',hprogress',hle⟩ := h c.ID progress hprogress
    rw [hprogress']
    exact UInt32.le_iff_toNat_le.mp hle

theorem Grows.total_le (h : Grows m m') : m.total cList ≤ m'.total cList := by
  induction cList with
  | nil => exact le_rfl
  | cons c cList ih =>
    rw [total_cons,total_cons]
    exact Nat.add_le_add (h.counterOf_le c) ih

theorem Grows.reaches (h : Grows m m') (hreaches : m.Reaches cList) : m'.Reaches cList := by
  obtain ⟨pre,c,post,hsplit,hhas,hle⟩ := hreaches
  exact ⟨pre,c,post,hsplit,h.hasProgress hhas,hle.trans h.total_le⟩

theorem Grows.isCompletedCriteria (h : Grows m m')
    (hcompleted : m.isCompletedCriteria A c (some entry) = true) :
    m'.isCompletedCriteria A c (some entry) = true := by
  unfold AchievementMgr.isCompletedCriteria at hcompleted ⊢
  dsimp only at hcompleted ⊢
  split_ifs at hcompleted ⊢ with hcounter hrealm
  cases hprogress : m.criteriaProgress c.ID with
  | none =>
    rw [hprogress] at hcompleted
    exact absurd hcompleted Bool.false_ne_true
  | some progress =>
    obtain ⟨progress',hprogress',hle⟩ := h c.ID progress hprogress
    rw [hprogress] at hcompleted
    rw [hprogress']
    cases hneed : c.requirement with
    | none =>
      rw [hneed] at hcompleted
      exact absurd hcompleted Bool.false_ne_true
    | some count =>
      rw [hneed] at hcompleted
      exact decide_eq_true (UInt32.le_trans (of_decide_eq_true hcompleted) hle)

theorem Grows.counts (h : Grows m m') (hcounts : Counts A m entry cList) :
    Counts A m' entry cList := by
  rcases hcounts with ⟨hneed,hall⟩ | ⟨hneed,hle⟩
  · exact .inl ⟨hneed,fun c hc => h.isCompletedCriteria (hall c hc)⟩
  · refine .inr ⟨hneed,hle.trans ?_⟩
    exact List.countP_mono_left fun c _ => h.isCompletedCriteria

theorem le_newValue {ptype : ProgressType} (hptype : ptype ≠ .set) (counter changeValue : UInt32) :
    counter ≤ newValue counter changeValue ptype := by
  rw [UInt32.le_iff_toNat_le]
  have hmax := counter.toNat_lt
  cases ptype with
  | set => exact absurd rfl hptype
  | accumulate =>
    unfold newValue
    dsimp only
    split_ifs with hroom
    · have hsub : (0xFFFFFFFF-counter).toNat = 0xFFFFFFFF-counter.toNat :=
        UInt32.toNat_sub_of_le _ _ (UInt32.le_iff_toNat_le.mpr (by simp; omega))
      rw [UInt32.lt_iff_toNat_lt,hsub] at hroom
      rw [UInt32.toNat_add,Nat.mod_eq_of_lt (by omega)]
      exact Nat.le_add_right _ _
    · simp
      omega
  | highest =>
    unfold newValue
    dsimp only
    split_ifs with hlt
    · exact UInt32.le_iff_toNat_le.mp (UInt32.le_of_lt hlt)
    · exact le_rfl

theorem grows_update {id counter : UInt32} (now : Nat)
    (h : ∀ progress, m.criteriaProgress id = some progress → progress.counter ≤ counter)
    (heq : m'.criteriaProgress =
      Function.update m.criteriaProgress id (some ⟨counter,now,true⟩)) : Grows m m' := by
  intro id' progress hprogress
  rw [heq]
  by_cases hid : id' = id
  · subst hid
    exact ⟨_,Function.update_self ..,h progress hprogress⟩
  · exact ⟨progress,by rw [Function.update_of_ne hid,hprogress],UInt32.le_refl _⟩

theorem grows_setCriteriaProgress {ptype : ProgressType} (hptype : ptype ≠ .set)
    (changeValue : UInt32) (now : Nat) :
    Grows m (m.setCriteriaProgress A criteria changeValue ptype now) := by
  unfold setCriteriaProgress
  split_ifs with htimer
  · exact .refl m
  · cases hset : m.counterToSet criteria changeValue ptype with
    | none => exact .refl m
    | some counter =>
      have hle : ∀ progress, m.criteriaProgress criteria.ID = some progress →
          progress.counter ≤ counter := by
        intro progress hprogress
        unfold counterToSet at hset
        rw [hprogress] at hset
        dsimp only at hset
        split_ifs at hset
        rw [← Option.some.inj hset]
        exact le_newValue hptype _ _
      refine grows_update now hle ?_
      dsimp only
      split_ifs <;> rfl

end Growth

section Runs

structure Call where
  entry : AchievementCriteriaEntry
  changeValue : UInt32
  ptype : ProgressType
  now : Nat
  notSet : ptype ≠ .set

def Call.apply (A : AchievementGlobalMgr) (m : AchievementMgr) (call : Call) : AchievementMgr :=
  m.setCriteriaProgress A call.entry call.changeValue call.ptype call.now

def run (A : AchievementGlobalMgr) (m : AchievementMgr) (calls : List Call) : AchievementMgr :=
  calls.foldl (Call.apply A) m

theorem grows_run (m : AchievementMgr) (calls : List Call) : Grows m (run A m calls) := by
  induction calls generalizing m with
  | nil => exact .refl m
  | cons call calls ih =>
    exact (grows_setCriteriaProgress call.notSet call.changeValue call.now).trans (ih _)

theorem run_append (m : AchievementMgr) (calls calls' : List Call) :
    run A m (calls ++ calls') = run A (run A m calls) calls' :=
  List.foldl_append

end Runs

section Orders

def reorder (A : AchievementGlobalMgr) (id : UInt32) (cList : List AchievementCriteriaEntry) :
    AchievementGlobalMgr :=
  { A with criteriaByAchievement := Function.update A.criteriaByAchievement id (some cList) }

/-- Where the criteria are summed, no order of them takes the sum past 32 bits before it comes to
what is required. -/
def NoOverflow (A : AchievementGlobalMgr) (m : AchievementMgr) (entry : AchievementEntry) : Prop :=
  Summed entry → ∀ cList, A.criteriaByAchievement entry.testId = some cList →
    ∀ cList', cList'.Perm cList → m.InRange cList'

/-- Where all criteria require the same, their order makes no difference, and a summed achievement
is completed exactly when there is progress and all of it comes to what is required. -/
def Exact (A : AchievementGlobalMgr) (m : AchievementMgr) (entry : AchievementEntry) : Prop :=
  ∀ cList, A.criteriaByAchievement entry.testId = some cList →
    ∀ k, (∀ c ∈ cList, c.count = k) →
      (∀ cList', cList'.Perm cList →
        m.isCompletedAchievement (reorder A entry.testId cList') entry =
          m.isCompletedAchievement A entry) ∧
      (Summed entry → (m.isCompletedAchievement A entry = true ↔
        (∃ c ∈ cList, m.HasProgress c) ∧ k.toNat ≤ m.total cList))

/-- Every state of a run is exact, and what is completed in one stays so. -/
structure Lawful (A : AchievementGlobalMgr) (m : AchievementMgr) (entry : AchievementEntry)
    (calls : List Call) : Prop where
  exact : ∀ pre, pre <+: calls → Exact A (run A m pre) entry
  kept : ∀ pre mid, pre ++ mid <+: calls →
    (run A m pre).isCompletedAchievement A entry = true →
      (run A m (pre ++ mid)).isCompletedAchievement A entry = true

@[simp] theorem criteriaByAchievement_reorder (id : UInt32) :
    (reorder A id cList).criteriaByAchievement id = some cList :=
  Function.update_self ..

@[simp] theorem counts_reorder (id : UInt32) :
    Counts (reorder A id cList') m entry cList ↔ Counts A m entry cList :=
  .rfl

theorem counts_perm (h : cList'.Perm cList) : Counts A m entry cList' ↔ Counts A m entry cList := by
  unfold Counts
  simp only [completedOf_perm h,h.mem_iff]

theorem reaches_perm {k : UInt32} (hsame : ∀ c ∈ cList, c.count = k) (h : cList'.Perm cList) :
    m.Reaches cList' ↔ m.Reaches cList := by
  rw [reaches_iff hsame,reaches_iff fun c hc => hsame c (h.mem_iff.mp hc),total_perm h]
  simp only [h.mem_iff]

theorem isCompletedAchievement_summed (hsummed : Summed entry)
    (hlist : A.criteriaByAchievement entry.testId = some cList) :
    m.isCompletedAchievement A entry = true ↔ m.ReachesWrapped cList := by
  rw [isCompletedAchievement_iff hlist]
  simp [hsummed,hsummed.2]

theorem isCompletedAchievement_counted (hsummed : ¬ Summed entry)
    (hlist : A.criteriaByAchievement entry.testId = some cList) :
    m.isCompletedAchievement A entry = true ↔ entry.hasFlag achievementFlagCounter = false ∧
      entry.hasFlag achievementFlagSumm = false ∧ Counts A m entry cList := by
  rw [isCompletedAchievement_iff hlist]
  simp [hsummed]

theorem NoOverflow.exact (h : NoOverflow A m entry) : Exact A m entry := by
  intro cList hlist k hsame
  constructor
  · intro cList' hperm
    have hlist' :
        (reorder A entry.testId cList').criteriaByAchievement entry.testId = some cList' :=
      criteriaByAchievement_reorder _
    rw [Bool.eq_iff_iff]
    by_cases hsummed : Summed entry
    · rw [isCompletedAchievement_summed hsummed hlist,isCompletedAchievement_summed hsummed hlist',
        (h hsummed cList hlist cList' hperm).reachesWrapped_iff,
        (h hsummed cList hlist cList (.refl _)).reachesWrapped_iff,reaches_perm hsame hperm]
    · rw [isCompletedAchievement_counted hsummed hlist,
        isCompletedAchievement_counted hsummed hlist',counts_reorder,counts_perm hperm]
  · intro hsummed
    rw [isCompletedAchievement_summed hsummed hlist,
      (h hsummed cList hlist cList (.refl _)).reachesWrapped_iff,reaches_iff hsame]

theorem Grows.isCompletedAchievement (h : Grows m m') (hrange : NoOverflow A m' entry)
    (hcompleted : m.isCompletedAchievement A entry = true) :
    m'.isCompletedAchievement A entry = true := by
  cases hlist : A.criteriaByAchievement entry.testId with
  | none =>
    rw [isCompletedAchievement_none hlist] at hcompleted
    exact absurd hcompleted Bool.false_ne_true
  | some cList =>
    by_cases hsummed : Summed entry
    · rw [isCompletedAchievement_summed hsummed hlist] at hcompleted ⊢
      rw [(hrange hsummed cList hlist cList (.refl _)).reachesWrapped_iff]
      exact h.reaches hcompleted.reaches
    · rw [isCompletedAchievement_counted hsummed hlist] at hcompleted ⊢
      exact ⟨hcompleted.1,hcompleted.2.1,h.counts hcompleted.2.2⟩

theorem lawful_of_states {calls : List Call}
    (h : ∀ pre, pre <+: calls → NoOverflow A (run A m pre) entry) : Lawful A m entry calls where
  exact := fun pre hpre => (h pre hpre).exact
  kept := by
    intro pre mid hmid hcompleted
    have hgrows : Grows (run A m pre) (run A m (pre ++ mid)) := by
      rw [run_append]
      exact grows_run _ mid
    exact hgrows.isCompletedAchievement (h _ hmid) hcompleted

/-- A run is lawful if in no state of it, and in no order of the summed criteria, the sum passes 32
bits before it comes to what is required. Where it does so in some order, and all criteria require
the same, the loop passes the criterion with which the sum comes to it. -/
theorem lawful_of_noOverflow (A : AchievementGlobalMgr) (m : AchievementMgr)
    (entry : AchievementEntry) (calls : List Call) :
    ((∀ pre, pre <+: calls → NoOverflow A (run A m pre) entry) → Lawful A m entry calls) ∧
    ∀ cList k, (∀ c ∈ cList, c.count = k) → ¬ m.InRange cList →
      ∃ pre c post, cList = pre ++ c :: post ∧ m.HasProgress c ∧ k.toNat ≤ m.total (pre ++ [c]) ∧
        m.sumCriteria 0 (pre ++ [c]) = false :=
  ⟨lawful_of_states,fun _ _ => passed_over⟩

theorem noOverflow_of_total_lt
    (h : ∀ cList, A.criteriaByAchievement entry.testId = some cList → m.total cList < 2^32) :
    NoOverflow A m entry := by
  intro _ cList hlist cList' hperm ⟨pre,c,post,hsplit,hhas,hle⟩
  refine ⟨pre,c,post,hsplit,hhas,hle,?_⟩
  have hlt := h cList hlist
  rw [← total_perm hperm,hsplit] at hlt
  simp only [total_append,total_cons,total_nil] at hlt ⊢
  omega

def twoHalves : List AchievementCriteriaEntry :=
  [⟨1,7,.damageDone,0xF0000000,0⟩,⟨2,7,.damageDone,0xF0000000,0⟩]

def halvesSummed : AchievementEntry := ⟨7,achievementFlagSumm,0,0⟩

def halvesGlobal : AchievementGlobalMgr where
  achievement _ := some halvesSummed
  criteriaByAchievement _ := some twoHalves
  isRealmCompleted _ := false

def halvesDone : AchievementMgr where
  criteriaProgress id := some ⟨if id = 1 then 0x70000000 else 0x80000000,0,false⟩
  timedAchievements _ := none

def oneMore : Call := ⟨⟨1,7,.damageDone,0xF0000000,0⟩,0x10000000,.accumulate,1,by decide⟩

def halvesLess : AchievementMgr where
  criteriaProgress _ := some ⟨0x70000000,0,false⟩
  timedAchievements _ := none

theorem lawful_of_noOverflow_halves :
    (run halvesGlobal halvesLess [oneMore]).isCompletedAchievement halvesGlobal halvesSummed =
      true ∧ Lawful halvesGlobal halvesLess halvesSummed [oneMore] := by
  refine ⟨by decide,(lawful_of_noOverflow _ _ _ _).1 ?_⟩
  intro pre hpre
  have htotal : ∀ pre ∈ [oneMore].inits,
      (run halvesGlobal halvesLess pre).total twoHalves < 2^32 := by decide
  refine noOverflow_of_total_lt fun cList hlist => ?_
  obtain rfl : twoHalves = cList := Option.some.inj hlist
  exact htotal pre ((List.mem_inits _ _).mpr hpre)

/-- More damage takes the sum past 32 bits, and the achievement back. -/
theorem halvesDone_lost :
    halvesDone.isCompletedAchievement halvesGlobal halvesSummed = true ∧
    (run halvesGlobal halvesDone [oneMore]).isCompletedAchievement halvesGlobal halvesSummed =
      false ∧
    ¬ Lawful halvesGlobal halvesDone halvesSummed [oneMore] := by
  have hdone : halvesDone.isCompletedAchievement halvesGlobal halvesSummed = true := by decide
  have hlost : (run halvesGlobal halvesDone [oneMore]).isCompletedAchievement halvesGlobal
      halvesSummed = false := by decide
  refine ⟨hdone,hlost,fun hlawful => ?_⟩
  have hkept := hlawful.kept [] [oneMore] (List.prefix_refl _) hdone
  exact absurd (hlost.symm.trans hkept) Bool.false_ne_true

end Orders

end AchievementMgr

end TrinityCore.Achievements
