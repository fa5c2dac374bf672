import TrinityCore.Achievements.AchievementMgr

set_option autoImplicit false

namespace TrinityCore.Achievements

namespace AchievementMgr

variable {A : AchievementGlobalMgr} {m m' : AchievementMgr} {entry : AchievementEntry}
  {cList cList' pre post : List AchievementCriteriaEntry} {criteria c : AchievementCriteriaEntry}

section Sums

def HasProgress (m : AchievementMgr) (c : AchievementCriteriaEntry) : Prop :=
  m.criteriaProgress c.ID ≠ none

def counterOf (m : AchievementMgr) (c : AchievementCriteriaEntry) : Nat :=
  ((m.criteriaProgress c.ID).map fun progress => progress.counter.toNat).getD 0

def total (m : AchievementMgr) (cList : List AchievementCriteriaEntry) : Nat :=
  (cList.map m.counterOf).sum

/-- Up to some criterion with progress, the progress comes to what that one requires. -/
def Reaches (m : AchievementMgr) (cList : List AchievementCriteriaEntry) : Prop :=
  ∃ pre c post, cList = pre ++ c :: post ∧ m.HasProgress c ∧ c.count.toNat ≤ m.total (pre ++ [c])

def ReachesWrapped (m : AchievementMgr) (cList : List AchievementCriteriaEntry) : Prop :=
  ∃ pre c post, cList = pre ++ c :: post ∧ m.HasProgress c ∧
    c.count.toNat ≤ m.total (pre ++ [c]) % 2^32

/-- If the progress comes to what some criterion requires, it does so before it comes to 2^32. -/
def InRange (m : AchievementMgr) (cList : List AchievementCriteriaEntry) : Prop :=
  m.Reaches cList → ∃ pre c post, cList = pre ++ c :: post ∧ m.HasProgress c ∧
    c.count.toNat ≤ m.total (pre ++ [c]) ∧ m.total (pre ++ [c]) < 2^32

@[simp] theorem total_nil : m.total [] = 0 := rfl

@[simp] theorem total_cons : m.total (c :: cList) = m.counterOf c+m.total cList :=
  List.sum_cons

@[simp] theorem total_append : m.total (cList ++ cList') = m.total cList+m.total cList' := by
  unfold total
  rw [List.map_append,List.sum_append]

theorem total_perm (h : cList.Perm cList') : m.total cList = m.total cList' :=
  (h.map m.counterOf).sum_eq

theorem exists_split_cons {P : List AchievementCriteriaEntry → AchievementCriteriaEntry → Prop} :
    (∃ pre c post, criteria :: cList = pre ++ c :: post ∧ P pre c) ↔
      P [] criteria ∨ ∃ pre c post, cList = pre ++ c :: post ∧ P (criteria :: pre) c := by
  constructor
  · rintro ⟨pre,c,post,heq,hP⟩
    cases pre with
    | nil =>
      obtain ⟨rfl,-⟩ := List.cons.inj heq
      exact .inl hP
    | cons a pre =>
      obtain ⟨rfl,hrest⟩ := List.cons.inj heq
      exact .inr ⟨pre,c,post,hrest,hP⟩
  · rintro (hP | ⟨pre,c,post,rfl,hP⟩)
    · exact ⟨[],criteria,cList,rfl,hP⟩
    · exact ⟨criteria :: pre,c,post,rfl,hP⟩

theorem sumCriteria_iff (count : UInt32) : m.sumCriteria count cList = true ↔
    ∃ pre c post, cList = pre ++ c :: post ∧ m.HasProgress c ∧
      c.count.toNat ≤ (count.toNat+m.total (pre ++ [c])) % 2^32 := by
  induction cList generalizing count with
  | nil => simp [sumCriteria]
  | cons criteria cList ih =>
    rw [exists_split_cons,sumCriteria]
    cases hprogress : m.criteriaProgress criteria.ID with
    | none =>
      have hzero : m.counterOf criteria = 0 := by
        unfold counterOf
        rw [hprogress]
        rfl
      have hno : ¬ m.HasProgress criteria := not_not.mpr hprogress
      dsimp only
      rw [ih]
      simp [hno,hzero]
    | some progress =>
      have hcounter : m.counterOf criteria = progress.counter.toNat := by
        unfold counterOf
        rw [hprogress]
        rfl
      have hhas : m.HasProgress criteria := by
        unfold HasProgress
        rw [hprogress]
        exact Option.some_ne_none _
      have hsum : (count+progress.counter).toNat = (count.toNat+m.counterOf criteria) % 2^32 := by
        rw [hcounter,UInt32.toNat_add]
      have hrest : ∀ t, ((count+progress.counter).toNat+t) % 2^32 =
          (count.toNat+(m.counterOf criteria+t)) % 2^32 := by
        intro t
        rw [hsum]
        omega
      dsimp only
      by_cases hle : criteria.count ≤ count+progress.counter
      · rw [if_pos hle]
        refine iff_of_true rfl (.inl ⟨hhas,?_⟩)
        rw [UInt32.le_iff_toNat_le,hsum] at hle
        simpa using hle
      · rw [if_neg hle,ih]
        have hnot : ¬ criteria.count.toNat ≤ (count.toNat+m.total ([] ++ [criteria])) % 2^32 := by
          rw [UInt32.le_iff_toNat_le,hsum] at hle
          simpa using hle
        simp only [hnot,and_false,false_or,hrest,List.cons_append,total_cons]

theorem sumCriteria_zero_iff : m.sumCriteria 0 cList = true ↔ m.ReachesWrapped cList := by
  rw [sumCriteria_iff]
  simp [ReachesWrapped]

theorem ReachesWrapped.reaches (h : m.ReachesWrapped cList) : m.Reaches cList := by
  obtain ⟨pre,c,post,hsplit,hhas,hle⟩ := h
  exact ⟨pre,c,post,hsplit,hhas,hle.trans (Nat.mod_le _ _)⟩

theorem InRange.reachesWrapped_iff (h : m.InRange cList) : m.ReachesWrapped cList ↔ m.Reaches cList := by
  refine ⟨ReachesWrapped.reaches,fun hreaches => ?_⟩
  obtain ⟨pre,c,post,hsplit,hhas,hle,hlt⟩ := h hreaches
  exact ⟨pre,c,post,hsplit,hhas,by rwa [Nat.mod_eq_of_lt hlt]⟩

theorem counterOf_of_not_hasProgress (h : ¬ m.HasProgress c) : m.counterOf c = 0 := by
  unfold counterOf
  rw [not_not.mp h]
  rfl

theorem counterOf_lt (m : AchievementMgr) (c : AchievementCriteriaEntry) : m.counterOf c < 2^32 := by
  unfold counterOf
  cases m.criteriaProgress c.ID with
  | none => exact Nat.two_pow_pos 32
  | some progress => exact progress.counter.toNat_lt

theorem reaches_iff {k : UInt32} (hsame : ∀ c ∈ cList, c.count = k) :
    m.Reaches cList ↔ (∃ c ∈ cList, m.HasProgress c) ∧ k.toNat ≤ m.total cList := by
  constructor
  · rintro ⟨pre,c,post,rfl,hhas,hle⟩
    have hmem : c ∈ pre ++ c :: post := by simp
    refine ⟨⟨c,hmem,hhas⟩,?_⟩
    rw [← hsame c hmem]
    simp only [total_append,total_cons,total_nil] at hle ⊢
    omega
  · rintro ⟨⟨c,hc,hhas⟩,hle⟩
    induction cList using List.reverseRecOn generalizing c with
    | nil => exact absurd hc List.not_mem_nil
    | append_singleton cList last ih =>
      by_cases hlast : m.HasProgress last
      · refine ⟨cList,last,[],rfl,hlast,?_⟩
        rwa [hsame last (by simp)]
      · have hzero := counterOf_of_not_hasProgress hlast
        have hmem : c ∈ cList := by
          rcases List.mem_append.mp hc with hc | hc
          · exact hc
          · rw [List.mem_singleton.mp hc] at hhas
            exact absurd hhas hlast
        have hle' : k.toNat ≤ m.total cList := by simpa [hzero] using hle
        obtain ⟨pre,c',post,rfl,hhas',hle'⟩ :=
          ih (fun c hc => hsame c (by simp [hc])) hle' c hmem hhas
        exact ⟨pre,c',post ++ [last],by simp,hhas',hle'⟩

/-- The first criterion with which the progress comes to what is required. -/
theorem Reaches.first (h : m.Reaches cList) : ∃ pre c post, cList = pre ++ c :: post ∧
    m.HasProgress c ∧ c.count.toNat ≤ m.total (pre ++ [c]) ∧ ¬ m.Reaches pre := by
  induction cList using List.reverseRecOn with
  | nil =>
    obtain ⟨pre,c,post,hsplit,-⟩ := h
    simp at hsplit
  | append_singleton cList last ih =>
    by_cases hearlier : m.Reaches cList
    · obtain ⟨pre,c,post,rfl,hfirst⟩ := ih hearlier
      exact ⟨pre,c,post ++ [last],by simp,hfirst⟩
    · obtain ⟨pre,c,post,hsplit,hhas,hle⟩ := h
      rcases List.eq_nil_or_concat post with rfl | ⟨post,last',rfl⟩
      · exact ⟨pre,c,[],hsplit,hhas,hle,by rwa [← (List.append_inj' hsplit rfl).1]⟩
      · refine absurd ⟨pre,c,post,?_,hhas,hle⟩ hearlier
        have hsplit' : cList ++ [last] = (pre ++ c :: post) ++ [last'] := by simpa using hsplit
        exact (List.append_inj' hsplit' rfl).1

/-- Where all criteria require the same and the progress comes to it from 2^32 on only, the loop
passes the criterion with which it does. -/
theorem passed_over {k : UInt32} (hsame : ∀ c ∈ cList, c.count = k) (h : ¬ m.InRange cList) :
    ∃ pre c post, cList = pre ++ c :: post ∧ m.HasProgress c ∧ k.toNat ≤ m.total (pre ++ [c]) ∧
      m.sumCriteria 0 (pre ++ [c]) = false := by
  obtain ⟨hreaches,hout⟩ := Classical.not_imp.mp h
  obtain ⟨pre,c,post,rfl,hhas,hle,hfirst⟩ := hreaches.first
  have hc : c.count = k := hsame c (by simp)
  have hover : 2^32 ≤ m.total (pre ++ [c]) := by
    by_contra hlt
    exact hout ⟨pre,c,post,rfl,hhas,hle,not_le.mp hlt⟩
  have hcounter := counterOf_lt m c
  have hsum : m.total (pre ++ [c]) = m.total pre+m.counterOf c := by simp
  -- before the criterion the sum is below the count
  have hbefore : m.total pre < k.toNat := by
    by_contra hnot
    refine hfirst ((reaches_iff fun c hc => hsame c (by simp [hc])).mpr ⟨?_,not_lt.mp hnot⟩)
    by_contra hnone
    have hzero : m.total pre = 0 := by
      apply List.sum_eq_zero
      intro x hx
      obtain ⟨c',hc',rfl⟩ := List.mem_map.mp hx
      exact counterOf_of_not_hasProgress fun hhas' => hnone ⟨c',hc',hhas'⟩
    omega
  refine ⟨pre,c,post,rfl,hhas,hc ▸ hle,?_⟩
  rw [Bool.eq_false_iff,Ne,sumCriteria_zero_iff]
  rintro ⟨pre',c',post',hsplit,hhas',hle'⟩
  rcases List.eq_nil_or_concat post' with rfl | ⟨post',last,rfl⟩
  · obtain ⟨rfl,hlast⟩ := List.append_inj' hsplit rfl
    obtain rfl : c = c' := by simpa using hlast
    rw [hc] at hle'
    omega
  · refine hfirst ⟨pre',c',post',?_,hhas',hle'.trans (Nat.mod_le _ _)⟩
    have hsplit' : pre ++ [c] = (pre' ++ c' :: post') ++ [last] := by simpa using hsplit
    exact (List.append_inj' hsplit' rfl).1

end Sums

section Counts

def completedOf (A : AchievementGlobalMgr) (m : AchievementMgr) (entry : AchievementEntry)
    (cList : List AchievementCriteriaEntry) : Nat :=
  cList.countP (m.isCompletedCriteria A · (some entry))

theorem completedOf_cons : m.completedOf A entry (c :: cList) =
    m.completedOf A entry cList+if m.isCompletedCriteria A c (some entry) then 1 else 0 :=
  List.countP_cons

theorem countCriteria_all (hneed : entry.count = 0) (count : UInt32) (completedAll : Bool) :
    m.countCriteria A entry count completedAll cList = true ↔
      completedAll = true ∧ ∀ c ∈ cList, m.isCompletedCriteria A c (some entry) = true := by
  have hno : ∀ count, ¬ (0 < entry.count ∧ entry.count ≤ count) := by
    rintro count ⟨hpos,-⟩
    rw [hneed] at hpos
    exact lt_irrefl 0 hpos
  induction cList generalizing count completedAll with
  | nil => simp [countCriteria,hneed]
  | cons criteria cList ih =>
    rw [countCriteria]
    simp only [if_neg (hno _),ih,Bool.and_eq_true,List.forall_mem_cons,and_assoc]

theorem countCriteria_some (hneed : entry.count ≠ 0) {count : UInt32} (hcount : count < entry.count)
    (completedAll : Bool) :
    m.countCriteria A entry count completedAll cList = true ↔
      entry.count.toNat ≤ count.toNat+m.completedOf A entry cList := by
  have hpos : 0 < entry.count := UInt32.pos_iff_ne_zero.mpr hneed
  induction cList generalizing count completedAll with
  | nil =>
    rw [UInt32.lt_iff_toNat_lt] at hcount
    simpa [countCriteria,hneed,completedOf] using hcount
  | cons criteria cList ih =>
    rw [countCriteria,completedOf_cons]
    by_cases hcompleted : m.isCompletedCriteria A criteria (some entry) = true
    · rw [if_pos hcompleted,if_pos hcompleted]
      -- the count stays below what is tested for, so it does not overflow
      have hsucc : (count+1).toNat = count.toNat+1 := by
        have hlt := UInt32.lt_iff_toNat_lt.mp hcount
        have hmax := entry.count.toNat_lt
        rw [UInt32.toNat_add]
        exact Nat.mod_eq_of_lt (by simp; omega)
      by_cases hle : entry.count ≤ count+1
      · rw [if_pos ⟨hpos,hle⟩]
        rw [UInt32.le_iff_toNat_le,hsucc] at hle
        exact iff_of_true rfl (by omega)
      · rw [if_neg fun h => hle h.2]
        refine (ih (UInt32.not_le.mp hle) _).trans ?_
        rw [hsucc]
        omega
    · rw [if_neg hcompleted,if_neg hcompleted,if_neg fun h => UInt32.not_le.mpr hcount h.2]
      exact ih hcount _

theorem completedOf_perm (h : cList.Perm cList') :
    m.completedOf A entry cList = m.completedOf A entry cList' :=
  h.countP_eq _

end Counts

/-- The criteria of an achievement are summed. A counter is never tested. -/
def Summed (entry : AchievementEntry) : Prop :=
  entry.hasFlag achievementFlagCounter = false ∧ entry.hasFlag achievementFlagSumm = true

def Counts (A : AchievementGlobalMgr) (m : AchievementMgr) (entry : AchievementEntry)
    (cList : List AchievementCriteriaEntry) : Prop :=
  (entry.count = 0 ∧ ∀ c ∈ cList, m.isCompletedCriteria A c (some entry) = true) ∨
    (entry.count ≠ 0 ∧ entry.count.toNat ≤ m.completedOf A entry cList)

theorem countCriteria_iff :
    m.countCriteria A entry 0 true cList = true ↔ Counts A m entry cList := by
  by_cases hneed : entry.count = 0
  · simp [Counts,hneed,countCriteria_all hneed]
  · rw [countCriteria_some hneed (UInt32.pos_iff_ne_zero.mpr hneed)]
    simp [Counts,hneed]

theorem isCompletedAchievement_iff (hlist : A.criteriaByAchievement entry.testId = some cList) :
    m.isCompletedAchievement A entry = true ↔
      (Summed entry ∧ m.ReachesWrapped cList) ∨
        (entry.hasFlag achievementFlagCounter = false ∧
          entry.hasFlag achievementFlagSumm = false ∧ Counts A m entry cList) := by
  unfold isCompletedAchievement Summed
  rw [hlist]
  cases entry.hasFlag achievementFlagCounter <;> cases entry.hasFlag achievementFlagSumm <;>
    simp [sumCriteria_zero_iff,countCriteria_iff]

theorem isCompletedAchievement_none (hlist : A.criteriaByAchievement entry.testId = none) :
    m.isCompletedAchievement A entry = false := by
  unfold isCompletedAchievement
  rw [hlist]
  exact ite_self false

end AchievementMgr

end TrinityCore.Achievements
