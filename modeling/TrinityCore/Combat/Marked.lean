import TrinityCore.Combat.References

set_option autoImplicit false

namespace TrinityCore.Combat.ThreatManager

def SortedByThreat (m : ThreatManager) : Prop := m.threatContainer.Pairwise m.mayPrecede

instance (m : ThreatManager) : Decidable m.SortedByThreat :=
  inferInstanceAs (Decidable (m.threatContainer.Pairwise m.mayPrecede))

/-- In order of threat, or marked to be sorted before the next victim is selected. -/
def InOrder (m : ThreatManager) : Prop := m.dirty = true ∨ m.SortedByThreat

instance (m : ThreatManager) : Decidable m.InOrder :=
  inferInstanceAs (Decidable (m.dirty = true ∨ m.SortedByThreat))

/-- With this threat the reference stands in its place in the container. A reference that is not in
it stands behind all others. -/
def InPlace (m : ThreatManager) (ref : Nat) (threat : ℚ) : Prop :=
  (∀ a ∈ m.threatContainer.takeWhile (· ≠ ref), threat ≤ m.threatOf a) ∧
    ∀ a ∈ (m.threatContainer.dropWhile (· ≠ ref)).tail, m.threatOf a ≤ threat

instance (m : ThreatManager) (ref : Nat) (threat : ℚ) : Decidable (m.InPlace ref threat) :=
  inferInstanceAs (Decidable (_ ∧ _))

/-- A reference that comes online with this threat sets the dirty flag or is in its place. -/
def Joins (m : ThreatManager) (ref : Nat) (threat : ℚ) : Prop :=
  m.dirty = true ∨
    m.currentVictim.any (fun victim => decide (threat > (11/10)*m.threatOf victim)) ∨
    m.InPlace ref threat

instance (m : ThreatManager) (ref : Nat) (threat : ℚ) : Decidable (m.Joins ref threat) :=
  inferInstanceAs (Decidable (_ ∨ _))

/-- The status check brings the reference back online. -/
def comesOnline (w : World) (r : HostileReference) : Bool :=
  !r.online && (w.onlineStatus { r with valid := r.valid || w.getUnit r.unitGuid }).1

/-- A change of threat that sets the dirty flag or moves the reference past no other. -/
def Covered (w : World) (m : ThreatManager) (ref : Nat) (modThreat : ℚ) : Prop :=
  m.dirty = true ∨ (m.currentVictim = some ref ∧ modThreat < 0) ∨
    (m.currentVictim ≠ some ref ∧ modThreat > 0) ∨
    ∀ r ∈ m.refs ref,
      if r.online then m.InPlace ref (r.threat+modThreat)
      else comesOnline w r → m.Joins ref (r.threat+modThreat)

instance (w : World) (m : ThreatManager) (ref : Nat) (modThreat : ℚ) :
    Decidable (m.Covered w ref modThreat) :=
  inferInstanceAs (Decidable (_ ∨ _))

/-- `HostileReference::addThreat` as long as every change of threat is covered. -/
def coveredAddThreat (w : World) : Nat → ThreatManager → Nat → ℚ → Option ThreatManager
  | 0, _, _, _ => none
  | fuel+1, m, ref, modThreat =>
    if m.Covered w ref modThreat then
      (m.changeThreat w ref modThreat).addThreatToOwner w (fun m victimOwner =>
        m.addThreatWith w (coveredAddThreat w fuel) victimOwner 0 spellSchoolMaskNormal none)
        ref modThreat
    else none

/-- Each change of threat within a call is covered, and so is the return of a reference. -/
def marked (fuel : Nat) (w : World) (m : ThreatManager) : ThreatCall → Prop
  | .addThreat victim threat schoolMask threatSpell =>
    (m.addThreatWith w (coveredAddThreat w fuel) victim threat schoolMask threatSpell).isSome
  | .doAddThreat victim threat =>
    (m.doAddThreatWith w (coveredAddThreat w fuel) victim threat).isSome
  | .modifyThreatPercent victim percent =>
    ∀ ref ∈ m.getReferenceByTarget m.threatContainer victim,
      (coveredAddThreat w fuel m ref (m.threatOf ref*percent/100)).isSome
  | .refAddThreatPercent ref percent =>
    (coveredAddThreat w fuel m ref (m.threatOf ref*percent/100)).isSome
  | .tauntApply taunter =>
    ∀ victim ∈ m.currentVictim, ∀ ref ∈ m.getReferenceByTarget m.threatContainer taunter,
      m.threatOf ref < m.threatOf victim → m.tempThreatOf ref = 0 →
        let threat := m.threatOf victim-m.threatOf ref
        (coveredAddThreat w fuel (m.setTempThreatModifier ref threat) ref threat).isSome
  | .tauntFadeOut taunter =>
    ∀ ref ∈ m.getReferenceByTarget m.threatContainer taunter, m.tempThreatOf ref ≠ 0 →
      (coveredAddThreat w fuel m ref (-m.tempThreatOf ref)).isSome
  | .setOnlineOfflineState ref isOnline =>
    ∀ r ∈ m.refs ref, r.online = false → isOnline = true → m.Joins ref r.threat
  | .updateOnlineStatus ref => ∀ r ∈ m.refs ref, comesOnline w r → m.Joins ref r.threat
  | .removeReference _ => True
  | .clearReferences => True
  | .getHostilTarget => True

instance (fuel : Nat) (w : World) (m : ThreatManager) :
    (call : ThreatCall) → Decidable (marked fuel w m call)
  | .addThreat .. | .doAddThreat .. | .refAddThreatPercent .. => inferInstanceAs (Decidable (_ = true))
  | .modifyThreatPercent .. | .tauntFadeOut .. | .setOnlineOfflineState .. | .updateOnlineStatus .. =>
    inferInstanceAs (Decidable (∀ _, _))
  | .tauntApply .. => inferInstanceAs (Decidable (∀ _, _))
  | .removeReference _ | .clearReferences | .getHostilTarget => inferInstanceAs (Decidable True)

def Marked (m : ThreatManager) (call : World × ThreatCall) : Prop :=
  ∃ fuel, marked fuel call.1 m call.2

section Fuel

variable {w : World} {m m' : ThreatManager} {ref victim : Nat}
  {rec rec' : ThreatManager → Nat → ℚ → Option ThreatManager}

theorem addThreatToOwner_mono {add add' : ThreatManager → Nat → Option ThreatManager}
    (hadd : ∀ m unit m', add m unit = some m' → add' m unit = some m') {threat : ℚ}
    (h : m.addThreatToOwner w add ref threat = some m') :
    m.addThreatToOwner w add' ref threat = some m' := by
  unfold addThreatToOwner at h ⊢
  split_ifs at h ⊢
  · split at h
    · split_ifs at h ⊢
      · exact hadd _ _ _ h
      · exact h
    · exact h
  · exact h

variable (hrec : ∀ m ref threat m', rec m ref threat = some m' → rec' m ref threat = some m')

include hrec

theorem _addThreatWith_mono {threat : ℚ} (h : m._addThreatWith w rec victim threat = some m') :
    m._addThreatWith w rec' victim threat = some m' := by
  unfold _addThreatWith at h ⊢
  split at h
  · exact hrec _ _ _ _ h
  · split at h
    · exact hrec _ _ _ _ h
    · obtain ⟨m₁,hm₁,rfl⟩ := Option.map_eq_some_iff.mp h
      rw [hrec _ _ _ _ hm₁]
      rfl

theorem doAddThreatWith_mono {threat : ℚ} (h : m.doAddThreatWith w rec victim threat = some m') :
    m.doAddThreatWith w rec' victim threat = some m' := by
  unfold doAddThreatWith at h ⊢
  dsimp only at h ⊢
  split at h
  · rename_i hcond
    rw [if_pos hcond]
    split at h
    · rename_i target htarget
      split at h
      · rename_i hvalid
        obtain ⟨m₁,hm₁,h⟩ := Option.bind_eq_some_iff.mp h
        simp only [hvalid,if_true,_addThreatWith_mono hrec hm₁,Option.bind_some]
        exact _addThreatWith_mono hrec h
      · rename_i hvalid
        simp only [hvalid]
        exact _addThreatWith_mono hrec h
    · exact _addThreatWith_mono hrec h
  · rename_i hcond
    rw [if_neg hcond]
    exact _addThreatWith_mono hrec h

theorem addThreatWith_mono {threat : ℚ} {schoolMask : Nat} {threatSpell : Option Nat}
    (h : m.addThreatWith w rec victim threat schoolMask threatSpell = some m') :
    m.addThreatWith w rec' victim threat schoolMask threatSpell = some m' := by
  unfold addThreatWith at h ⊢
  split_ifs at h ⊢
  · exact doAddThreatWith_mono hrec h
  · exact h

end Fuel

variable {w : World} {m m' s s' : ThreatManager} {ref victim fuel fuel' : Nat}

theorem refAddThreat_mono {threat : ℚ} (hle : fuel ≤ fuel')
    (h : refAddThreat w fuel m ref threat = some m') :
    refAddThreat w fuel' m ref threat = some m' := by
  induction fuel generalizing fuel' m ref threat m' with
  | zero => simp [refAddThreat] at h
  | succ fuel ih =>
    obtain ⟨fuel',rfl⟩ : ∃ k, fuel' = k+1 := ⟨fuel'-1,by omega⟩
    rw [refAddThreat] at h ⊢
    apply addThreatToOwner_mono ?_ h
    intro m₁ unit m₂ hm₁
    exact addThreatWith_mono (fun _ _ _ _ h => ih (by omega) h) hm₁

theorem addTempThreat_mono {threat : ℚ} (hle : fuel ≤ fuel')
    (h : m.addTempThreat w fuel ref threat = some m') :
    m.addTempThreat w fuel' ref threat = some m' := by
  unfold addTempThreat at h ⊢
  dsimp only at h ⊢
  split_ifs at h ⊢
  · exact refAddThreat_mono hle h
  · exact h

theorem resetTempThreat_mono (hle : fuel ≤ fuel') (h : m.resetTempThreat w fuel ref = some m') :
    m.resetTempThreat w fuel' ref = some m' := by
  unfold resetTempThreat at h ⊢
  split_ifs at h ⊢
  · obtain ⟨m₁,hm₁,rfl⟩ := Option.map_eq_some_iff.mp h
    rw [refAddThreat_mono hle hm₁]
    rfl
  · exact h

theorem run_mono {call : ThreatCall} {answer : Option Nat} (hle : fuel ≤ fuel')
    (h : run fuel w m call = some (m',answer)) : run fuel' w m call = some (m',answer) := by
  have hmap : ∀ {o o' : Option ThreatManager}, (∀ m₁, o = some m₁ → o' = some m₁) →
      o.map (·,(none : Option Nat)) = some (m',answer) →
      o'.map (·,(none : Option Nat)) = some (m',answer) := by
    intro o o' ho heq
    obtain ⟨m₁,hm₁,heq⟩ := Option.map_eq_some_iff.mp heq
    rw [ho m₁ hm₁]
    exact congrArg some heq
  have hrec : ∀ m ref threat m', refAddThreat w fuel m ref threat = some m' →
      refAddThreat w fuel' m ref threat = some m' := fun _ _ _ _ h => refAddThreat_mono hle h
  cases call with
  | addThreat victim threat schoolMask threatSpell =>
    exact hmap (fun _ => addThreatWith_mono hrec) h
  | doAddThreat victim threat => exact hmap (fun _ => doAddThreatWith_mono hrec) h
  | modifyThreatPercent victim percent =>
    apply hmap ?_ h
    intro m₁ hm₁
    unfold modifyThreatPercent at hm₁ ⊢
    split at hm₁
    · exact refAddThreat_mono hle hm₁
    · exact hm₁
  | refAddThreatPercent ref percent => exact hmap (fun _ => refAddThreat_mono hle) h
  | tauntApply taunter =>
    apply hmap ?_ h
    intro m₁ hm₁
    unfold tauntApply at hm₁ ⊢
    split at hm₁
    · split_ifs at hm₁ ⊢
      · exact addTempThreat_mono hle hm₁
      · exact hm₁
    · exact hm₁
  | tauntFadeOut taunter =>
    apply hmap ?_ h
    intro m₁ hm₁
    unfold tauntFadeOut at hm₁ ⊢
    split at hm₁
    · exact resetTempThreat_mono hle hm₁
    · exact hm₁
  | setOnlineOfflineState ref isOnline => exact h
  | updateOnlineStatus ref => exact h
  | removeReference ref => exact h
  | clearReferences => exact h
  | getHostilTarget => exact h

theorem step_unique {call : World × ThreatCall} {answer answer' : Option Nat}
    (h : Step m call answer s) (h' : Step m call answer' s') : s = s' ∧ answer = answer' := by
  obtain ⟨fuel,h⟩ := h
  obtain ⟨fuel',h'⟩ := h'
  have heq := run_mono (le_max_left fuel fuel') h
  rw [run_mono (le_max_right fuel fuel') h'] at heq
  cases heq
  exact ⟨rfl,rfl⟩


theorem refAddThreat_of_covered {threat : ℚ}
    (h : coveredAddThreat w fuel m ref threat = some m') :
    refAddThreat w fuel m ref threat = some m' := by
  induction fuel generalizing m ref threat m' with
  | zero => simp [coveredAddThreat] at h
  | succ fuel ih =>
    rw [coveredAddThreat] at h
    split at h
    · rw [refAddThreat]
      apply addThreatToOwner_mono ?_ h
      intro m₁ unit m₂ hm₁
      exact addThreatWith_mono (fun _ _ _ _ h => ih h) hm₁
    · simp at h

theorem InOrder.of_sublist (h : m.InOrder) (hdirty : m.dirty = true → m'.dirty = true)
    (hsub : m'.threatContainer.Sublist m.threatContainer)
    (hthreat : ∀ a ∈ m'.threatContainer, m'.threatOf a = m.threatOf a) : m'.InOrder := by
  refine h.imp hdirty fun hsorted => ?_
  refine (hsorted.sublist hsub).imp_of_mem ?_
  intro a b ha hb hab
  unfold mayPrecede
  rw [hthreat a ha,hthreat b hb]
  exact hab

/-- Without the reference the container is in order, or it is marked. -/
def OrderedBut (m : ThreatManager) (ref : Nat) : Prop :=
  m.dirty = true ∨ (m.threatContainer.filter (· ≠ ref)).Pairwise m.mayPrecede

theorem InOrder.orderedBut (h : m.InOrder) : m.OrderedBut ref :=
  h.imp_right fun hsorted => hsorted.filter _

theorem filter_ne_split {l : List Nat} (hnodup : l.Nodup) :
    l.filter (· ≠ ref) = l.takeWhile (· ≠ ref) ++ (l.dropWhile (· ≠ ref)).tail := by
  induction l with
  | nil => rfl
  | cons a l ih =>
    obtain ⟨hnot,hnodup⟩ := List.nodup_cons.mp hnodup
    by_cases ha : a = ref
    · subst a
      have hall : l.filter (· ≠ ref) = l :=
        List.filter_eq_self.mpr fun b hb => by simpa using ne_of_mem_of_not_mem hb hnot
      simpa using hall
    · simpa [ha] using ih hnodup

theorem split_of_mem {l : List Nat} (h : ref ∈ l) :
    l = l.takeWhile (· ≠ ref) ++ ref :: (l.dropWhile (· ≠ ref)).tail := by
  induction l with
  | nil => simp at h
  | cons a l ih =>
    by_cases ha : a = ref
    · simp [ha]
    · have hmem : ref ∈ l := by simpa [Ne.symm ha] using h
      simpa [ha] using ih hmem

theorem split_of_not_mem {l : List Nat} (h : ref ∉ l) :
    l ++ [ref] = l.takeWhile (· ≠ ref) ++ ref :: (l.dropWhile (· ≠ ref)).tail := by
  have hne : ∀ a ∈ l, decide (a ≠ ref) = true := fun a ha => by
    simpa using ne_of_mem_of_not_mem ha h
  rw [List.takeWhile_eq_self_iff.mpr hne,List.dropWhile_eq_nil_iff.mpr hne,List.tail_nil]

theorem sorted_of_inPlace {threat : ℚ} (hnodup : m.threatContainer.Nodup)
    (hbut : (m.threatContainer.filter (· ≠ ref)).Pairwise m.mayPrecede)
    (hplace : m.InPlace ref threat)
    (hcontainer : m'.threatContainer = m.threatContainer.takeWhile (· ≠ ref) ++
      ref :: (m.threatContainer.dropWhile (· ≠ ref)).tail)
    (hthreat : ∀ a, m'.threatOf a = if a = ref then threat else m.threatOf a) :
    m'.SortedByThreat := by
  have hsplit := @filter_ne_split ref _ hnodup
  have hne : ∀ a ∈ m.threatContainer.takeWhile (· ≠ ref) ++
      (m.threatContainer.dropWhile (· ≠ ref)).tail, a ≠ ref := by
    intro a ha
    rw [← hsplit] at ha
    simpa using (List.mem_filter.mp ha).2
  rw [hsplit] at hbut
  -- the others keep their order
  have hothers := hbut.imp_of_mem (S := m'.mayPrecede) fun {a b} ha hb hab => by
    unfold mayPrecede
    rw [hthreat,hthreat,if_neg (hne a ha),if_neg (hne b hb)]
    exact hab
  obtain ⟨hbefore,hafter,hacross⟩ := List.pairwise_append.mp hothers
  unfold SortedByThreat
  rw [hcontainer,List.pairwise_append,List.pairwise_cons]
  refine ⟨hbefore,⟨?_,hafter⟩,?_⟩
  · intro b hb
    unfold mayPrecede
    rw [hthreat b,hthreat ref,if_pos rfl,if_neg (hne b (List.mem_append_right _ hb))]
    exact hplace.2 b hb
  · intro a ha b hb
    rcases List.mem_cons.mp hb with rfl | hb
    · unfold mayPrecede
      rw [hthreat a,hthreat b,if_pos rfl,if_neg (hne a (List.mem_append_left _ ha))]
      exact hplace.1 a ha
    · exact hacross a ha b hb

theorem threatOf_setRef (r : HostileReference) (a : Nat) :
    (m.setRef ref r).threatOf a = if a = ref then r.threat else m.threatOf a := by
  by_cases ha : a = ref <;> simp [threatOf,setRef,ha]

theorem threatOf_setRef_same {r r' : HostileReference} (h : m.refs ref = some r)
    (hthreat : r'.threat = r.threat) (a : Nat) : (m.setRef ref r').threatOf a = m.threatOf a := by
  rw [threatOf_setRef]
  split_ifs with ha
  · simp [ha,threatOf,h,hthreat]
  · rfl

theorem threatOf_setOnlineOfflineState (isOnline : Bool) (a : Nat) :
    (m.setOnlineOfflineState ref isOnline).threatOf a = m.threatOf a := by
  rcases Option.eq_none_or_eq_some (m.refs ref) with hr | ⟨r,hr⟩
  · simp [setOnlineOfflineState,hr]
  by_cases hne : r.online = isOnline
  · simp [setOnlineOfflineState,hr,hne]
  · obtain ⟨-,hrefs,-⟩ := setOnlineOfflineState_eq hr hne
    by_cases ha : a = ref <;> simp [threatOf,hrefs,ha,hr]

theorem dirty_processOnlineStatus {isOnline : Bool} (h : m.dirty = true) :
    (m.processOnlineStatus ref isOnline).dirty = true := by
  unfold processOnlineStatus
  dsimp only
  split_ifs <;> first | exact h | rfl

theorem dirty_setOnlineOfflineState {isOnline : Bool} (h : m.dirty = true) :
    (m.setOnlineOfflineState ref isOnline).dirty = true := by
  unfold setOnlineOfflineState
  split
  · exact h
  · split
    · exact dirty_processOnlineStatus h
    · exact h

theorem dirty_processOnlineStatus_over
    (h : m.currentVictim.any fun victim => decide (m.threatOf ref > (11/10)*m.threatOf victim)) :
    (m.processOnlineStatus ref true).dirty = true := by
  unfold processOnlineStatus
  simp only [h,Bool.not_true,Bool.false_eq_true,if_false,if_true]

theorem dirty_setOnline {r : HostileReference} (hr : m.refs ref = some r)
    (hoffline : r.online = false)
    (h : m.currentVictim.any fun victim => decide (r.threat > (11/10)*m.threatOf victim)) :
    (m.setOnlineOfflineState ref true).dirty = true := by
  have heq : m.setOnlineOfflineState ref true =
      (m.setRef ref { r with online := true }).processOnlineStatus ref true := by
    simp [setOnlineOfflineState,hr,hoffline]
  rw [heq]
  apply dirty_processOnlineStatus_over
  simp only [@threatOf_setRef_same m ref r { r with online := true } hr rfl]
  simpa [threatOf,hr,setRef] using h

theorem Tracked.not_mem_of_offline (ht : Tracked m) {r : HostileReference}
    (hr : m.refs ref = some r) (hoffline : r.online = false) : ref ∉ m.threatContainer := by
  rw [ht.online]
  simp [onlineOf,hr,hoffline]

theorem InOrder.setOnlineOfflineState (ht : Tracked m) (h : m.InOrder) {isOnline : Bool}
    (hjoins : ∀ r ∈ m.refs ref, r.online = false → isOnline = true → m.Joins ref r.threat) :
    (m.setOnlineOfflineState ref isOnline).InOrder := by
  rcases Option.eq_none_or_eq_some (m.refs ref) with hr | ⟨r,hr⟩
  · simpa [ThreatManager.setOnlineOfflineState,hr] using h
  by_cases hne : r.online = isOnline
  · simpa [ThreatManager.setOnlineOfflineState,hr,hne] using h
  obtain ⟨-,-,hcontainer,-⟩ := setOnlineOfflineState_eq hr hne
  cases isOnline with
  | false =>
    apply h.of_sublist dirty_setOnlineOfflineState
    · rw [hcontainer]
      exact List.filter_sublist
    · exact fun a _ => threatOf_setOnlineOfflineState false a
  | true =>
    have hoffline : r.online = false := by simpa using hne
    have hnot := ht.not_mem_of_offline hr hoffline
    rcases h with hdirty | hsorted
    · exact .inl (dirty_setOnlineOfflineState hdirty)
    rcases hjoins r hr hoffline rfl with hdirty | hover | hplace
    · exact .inl (dirty_setOnlineOfflineState hdirty)
    · exact .inl (dirty_setOnline hr hoffline hover)
    · refine .inr (sorted_of_inPlace ht.onlineNodup (hsorted.filter _) hplace ?_ ?_)
      · rw [hcontainer]
        exact split_of_not_mem hnot
      · intro a
        rw [threatOf_setOnlineOfflineState]
        split_ifs with ha
        · simp [ha,threatOf,hr]
        · rfl

theorem setRef_self {r : HostileReference} (hr : m.refs ref = some r) : m.setRef ref r = m := by
  unfold setRef
  rw [← hr,Function.update_eq_self]

theorem relink_eq {r : HostileReference} (hr : m.refs ref = some r) :
    m.relink w ref = m.setRef ref { r with valid := r.valid || w.getUnit r.unitGuid } := by
  simp only [relink,hr]
  split_ifs with hlink
  · have hunit : w.getUnit r.unitGuid = true := by simp_all
    rw [hunit,Bool.or_true]
  · have hvalid : (r.valid || w.getUnit r.unitGuid) = r.valid := by
      cases hv : r.valid <;> simp_all
    rw [hvalid,setRef_self hr]

theorem setRef_setRef (r r' : HostileReference) : (m.setRef ref r).setRef ref r' = m.setRef ref r' := by
  unfold setRef
  simp only [Function.update_idem]

theorem updateOnlineStatus_eq {r : HostileReference} (hr : m.refs ref = some r) :
    ∃ r', r'.threat = r.threat ∧ r'.online = r.online ∧ r'.unitGuid = r.unitGuid ∧
      m.updateOnlineStatus w ref = (m.setRef ref r').setOnlineOfflineState ref
        (w.onlineStatus { r with valid := r.valid || w.getUnit r.unitGuid }).1 := by
  unfold updateOnlineStatus
  simp only [relink_eq hr]
  have href : (m.setRef ref { r with valid := r.valid || w.getUnit r.unitGuid }).refs ref =
      some { r with valid := r.valid || w.getUnit r.unitGuid } := by simp [setRef]
  simp only [href,setAccessibleState,setRef_setRef]
  refine ⟨_,?_,?_,?_,rfl⟩ <;> rfl

theorem Joins.congr {threat : ℚ} (h : m.Joins ref threat) (hdirty : m'.dirty = m.dirty)
    (hcontainer : m'.threatContainer = m.threatContainer)
    (hvictim : m'.currentVictim = m.currentVictim) (hin : Tracked m)
    (hthreat : ∀ a ∈ m.threatContainer, m'.threatOf a = m.threatOf a) : m'.Joins ref threat := by
  rcases h with h | h | h
  · exact .inl (hdirty ▸ h)
  · refine .inr (.inl ?_)
    rw [hvictim]
    rcases Option.eq_none_or_eq_some m.currentVictim with hv | ⟨victim,hv⟩
    · simp [hv] at h
    · rw [hv] at h ⊢
      simpa [hthreat victim (hin.victim victim hv)] using h
  · refine .inr (.inr ?_)
    unfold InPlace at h ⊢
    rw [hcontainer]
    refine ⟨fun a ha => ?_,fun a ha => ?_⟩
    · rw [hthreat a ((List.takeWhile_prefix _).subset ha)]
      exact h.1 a ha
    · rw [hthreat a ((List.dropWhile_suffix _).subset (List.mem_of_mem_tail ha))]
      exact h.2 a ha

theorem InOrder.updateOnlineStatus (ht : Tracked m) (h : m.InOrder)
    (hjoins : ∀ r ∈ m.refs ref, comesOnline w r → m.Joins ref r.threat) :
    (m.updateOnlineStatus w ref).InOrder := by
  rcases Option.eq_none_or_eq_some (m.refs ref) with hr | ⟨r,hr⟩
  · have hrelink : m.relink w ref = m := by simp [relink,hr]
    simpa [ThreatManager.updateOnlineStatus,hrelink,hr] using h
  obtain ⟨r',hthreat,honline,hunit,heq⟩ := updateOnlineStatus_eq (w := w) hr
  have hsame := threatOf_setRef_same hr hthreat
  have h' : (m.setRef ref r').InOrder := h.of_sublist id (.refl _) fun a _ => hsame a
  rw [heq]
  apply h'.setOnlineOfflineState (ht.keeps (keeps_setRef hr honline hunit))
  intro r₁ hr₁ hoffline hback
  have hr₁' : r₁ = r' := by simpa [setRef] using hr₁.symm
  rw [hr₁',hthreat]
  have hcomes : comesOnline w r = true := by
    have : r.online = false := by rw [← honline,← hr₁',hoffline]
    unfold comesOnline
    rw [hback,this]
    rfl
  exact (hjoins r hr hcomes).congr rfl rfl rfl ht fun a _ => hsame a

/-- The event of the change sets the flag, or the container was in order without it. -/
theorem InOrder.processThreatChange {value : ℚ} (h : (m.currentVictim = some ref ∧ value < 0) ∨
    (m.currentVictim ≠ some ref ∧ value > 0) ∨ m.InOrder) :
    (if value ≠ 0 then m.processThreatChange ref value else m).InOrder := by
  rw [← or_assoc] at h
  unfold ThreatManager.processThreatChange
  split_ifs with hzero hflag
  · exact .inl rfl
  · exact h.resolve_left hflag
  · refine h.resolve_left ?_
    rw [not_not.mp hzero]
    simp

theorem currentVictim_setOnlineOfflineState {r : HostileReference} (hr : m.refs ref = some r)
    (hoffline : r.online = false) (isOnline : Bool) :
    (m.setOnlineOfflineState ref isOnline).currentVictim = m.currentVictim := by
  by_cases hne : r.online = isOnline
  · simp [ThreatManager.setOnlineOfflineState,hr,hne]
  · obtain ⟨-,-,-,-,hvictim⟩ := setOnlineOfflineState_eq hr hne
    have hback : isOnline = true := by simpa [hoffline] using hne
    rw [hvictim,if_neg (by simp [hback])]

theorem filter_ne_of_not_mem {l : List Nat} (h : ref ∉ l) : l.filter (· ≠ ref) = l :=
  List.filter_eq_self.mpr fun a ha => by simpa using ne_of_mem_of_not_mem ha h

theorem OrderedBut.inOrder (h : m.OrderedBut ref) (hnot : ref ∉ m.threatContainer) : m.InOrder := by
  rw [OrderedBut,filter_ne_of_not_mem hnot] at h
  exact h

/-- A change that moves the reference past no other, or sets the flag, puts it in its place. -/
theorem OrderedBut.changeThreat {modThreat : ℚ} (ht : Tracked m) (h : m.OrderedBut ref)
    (hcovered : m.Covered w ref modThreat) : (m.changeThreat w ref modThreat).InOrder := by
  rcases Option.eq_none_or_eq_some (m.refs ref) with hr | ⟨r,hr⟩
  · have hnot : ref ∉ m.threatContainer := by
      rw [ht.online]
      simp [onlineOf,hr]
    simpa only [ThreatManager.changeThreat,hr] using h.inOrder hnot
  simp only [ThreatManager.changeThreat,hr]
  have ht₁ : Tracked (m.setRef ref { r with threat := r.threat+modThreat }) :=
    ht.keeps (keeps_setRef hr rfl rfl)
  have hr₁ : (m.setRef ref { r with threat := r.threat+modThreat }).refs ref =
      some { r with threat := r.threat+modThreat } := by simp [setRef]
  have hthreat₁ := @threatOf_setRef m ref { r with threat := r.threat+modThreat }
  by_cases honline : r.online = true
  · have hstays : ¬(!r.online) = true := by simp [honline]
    rw [if_neg hstays]
    apply InOrder.processThreatChange
    rcases hcovered with hset | hset | hset | hplace
    · exact .inr (.inr (.inl hset))
    · exact .inl hset
    · exact .inr (.inl hset)
    · have hmem : ref ∈ m.threatContainer := by
        rw [ht.online]
        simp [onlineOf,hr,honline]
      have hplace := hplace r hr
      rw [if_pos honline] at hplace
      exact .inr (.inr (h.imp id fun hbut =>
        sorted_of_inPlace ht.onlineNodup hbut hplace (split_of_mem hmem) hthreat₁))
  · have hoffline : r.online = false := by simpa using honline
    have hchecked : (!r.online) = true := by simp [hoffline]
    have hnot := ht.not_mem_of_offline hr hoffline
    have hsame : ∀ a ∈ m.threatContainer,
        (m.setRef ref { r with threat := r.threat+modThreat }).threatOf a = m.threatOf a := by
      intro a ha
      rw [hthreat₁,if_neg (ne_of_mem_of_not_mem ha hnot)]
    have h₁ : (m.setRef ref { r with threat := r.threat+modThreat }).InOrder :=
      (h.inOrder hnot).of_sublist id (.refl _) hsame
    obtain ⟨r',-,honline',-,heq⟩ := updateOnlineStatus_eq (w := w) hr₁
    have hr' : ((m.setRef ref { r with threat := r.threat+modThreat }).setRef ref r').refs ref =
        some r' := by simp [setRef]
    have hvictim := currentVictim_setOnlineOfflineState hr' (honline'.trans hoffline)
    rw [if_pos hchecked]
    apply InOrder.processThreatChange
    rw [heq,hvictim]
    rcases hcovered with hset | hset | hset | hjoins
    · exact .inr (.inr (.inl (dirty_setOnlineOfflineState hset)))
    · exact .inl hset
    · exact .inr (.inl hset)
    · rw [← heq]
      refine .inr (.inr (h₁.updateOnlineStatus ht₁ ?_))
      intro r₁ hr₁' hcomes
      obtain rfl := Option.some.inj (hr₁.symm.trans hr₁')
      have hjoins := hjoins r hr
      rw [if_neg honline] at hjoins
      exact (hjoins hcomes).congr rfl rfl rfl ht hsame

theorem InOrder.addReference (ht : Tracked m) (h : m.InOrder) :
    (m.addReference victim).OrderedBut m.next := by
  have hnot : m.next ∉ m.threatContainer := by
    rw [ht.online,onlineOf_eq_none.mpr (ht.fresh m.next le_rfl)]
    simp
  have hcontainer : (m.addReference victim).threatContainer.filter (· ≠ m.next) =
      m.threatContainer := by
    simpa [ThreatManager.addReference] using filter_ne_of_not_mem hnot
  have hthreat : ∀ a ∈ m.threatContainer, (m.addReference victim).threatOf a = m.threatOf a := by
    intro a ha
    simp [threatOf,ThreatManager.addReference,ne_of_mem_of_not_mem ha hnot]
  refine h.imp id fun hsorted => ?_
  rw [hcontainer]
  refine List.Pairwise.imp_of_mem ?_ hsorted
  intro a b ha hb hab
  unfold mayPrecede
  rw [hthreat a ha,hthreat b hb]
  exact hab

theorem InOrder.setOffline (ht : Tracked m) (h : m.InOrder) :
    (m.setOnlineOfflineState ref false).InOrder :=
  h.setOnlineOfflineState ht fun _ _ _ hback => absurd hback Bool.false_ne_true

section Fuel

variable {rec : ThreatManager → Nat → ℚ → Option ThreatManager}
  (htracked : ∀ m ref threat m', rec m ref threat = some m' → Tracked m → Tracked m')
  (hrec : ∀ m ref threat m', rec m ref threat = some m' → Tracked m → m.OrderedBut ref →
    m'.InOrder)

include htracked hrec

theorem InOrder._addThreatWith {threat : ℚ} (ht : Tracked m) (h : m.InOrder)
    (hm : m._addThreatWith w rec victim threat = some m') : m'.InOrder := by
  unfold ThreatManager._addThreatWith at hm
  cases hon : m.getReferenceByTarget m.threatContainer victim with
  | some ref =>
    simp only [hon] at hm
    exact hrec m ref threat m' hm ht h.orderedBut
  | none =>
    cases hoff : m.getReferenceByTarget m.threatOfflineContainer victim with
    | some ref =>
      simp only [hon,hoff] at hm
      exact hrec m ref threat m' hm ht h.orderedBut
    | none =>
      simp only [hon,hoff,Option.map_eq_some_iff] at hm
      obtain ⟨m₁,hm₁,rfl⟩ := hm
      have hadded := ht.addReference hon hoff
      have h₁ := hrec _ _ _ m₁ hm₁ hadded (h.addReference ht)
      split_ifs
      · exact h₁.setOffline (htracked _ _ _ m₁ hm₁ hadded)
      · exact h₁

theorem InOrder.doAddThreatWith {threat : ℚ} (ht : Tracked m) (h : m.InOrder)
    (hm : m.doAddThreatWith w rec victim threat = some m') : m'.InOrder := by
  unfold ThreatManager.doAddThreatWith at hm
  dsimp only at hm
  split at hm
  · split at hm
    · split at hm
      · obtain ⟨m₁,hm₁,hm⟩ := Option.bind_eq_some_iff.mp hm
        have h₁ := InOrder._addThreatWith htracked hrec ht h hm₁
        exact InOrder._addThreatWith htracked hrec (Tracked._addThreatWith htracked hm₁ ht) h₁ hm
      · exact InOrder._addThreatWith htracked hrec ht h hm
    · exact InOrder._addThreatWith htracked hrec ht h hm
  · exact InOrder._addThreatWith htracked hrec ht h hm

theorem InOrder.addThreatWith {threat : ℚ} {schoolMask : Nat} {threatSpell : Option Nat}
    (ht : Tracked m) (h : m.InOrder)
    (hm : m.addThreatWith w rec victim threat schoolMask threatSpell = some m') : m'.InOrder := by
  unfold ThreatManager.addThreatWith at hm
  split at hm
  · exact InOrder.doAddThreatWith htracked hrec ht h hm
  · exact Option.some.inj hm ▸ h

end Fuel

theorem Tracked.coveredAddThreat {threat : ℚ}
    (hm : coveredAddThreat w fuel m ref threat = some m') (h : Tracked m) : Tracked m' :=
  Tracked.refAddThreat (refAddThreat_of_covered hm) h

theorem OrderedBut.coveredAddThreat {threat : ℚ} (ht : Tracked m) (h : m.OrderedBut ref)
    (hm : coveredAddThreat w fuel m ref threat = some m') : m'.InOrder := by
  induction fuel generalizing m ref threat m' with
  | zero => simp [ThreatManager.coveredAddThreat] at hm
  | succ fuel ih =>
    rw [ThreatManager.coveredAddThreat] at hm
    split at hm
    · rename_i hcovered
      have ht₁ := @Tracked.changeThreat w m ref ht threat
      have h₁ := h.changeThreat ht hcovered
      unfold addThreatToOwner at hm
      split at hm
      · split at hm
        · split at hm
          · exact InOrder.addThreatWith (fun _ _ _ _ hm ht => ht.coveredAddThreat hm)
              (fun _ _ _ _ hm ht h => ih ht h hm) ht₁ h₁ hm
          · exact Option.some.inj hm ▸ h₁
        · exact Option.some.inj hm ▸ h₁
      · exact Option.some.inj hm ▸ h₁
    · simp at hm

theorem processRemoveFromList_offline :
    let m' := m.processRemoveFromList ref false
    m'.refs = m.refs ∧ m'.threatContainer = m.threatContainer ∧
      (m.dirty = true → m'.dirty = true) := by
  unfold processRemoveFromList
  dsimp only
  split_ifs <;> simp_all

theorem InOrder.removeReference (ht : Tracked m) (h : m.InOrder) :
    (m.removeReference ref).InOrder := by
  unfold ThreatManager.removeReference
  rcases Option.eq_none_or_eq_some (m.refs ref) with hr | ⟨r,hr⟩
  · simpa only [hr] using h
  obtain ⟨r₁,hr₁,honline,hinvalidate⟩ := invalidate_eq hr
  have hnot := (ht.setOnlineOfflineState false).not_mem_of_offline hr₁ honline
  have hoffline : ((m.invalidate ref).refs ref).any HostileReference.online = false := by
    rw [hinvalidate]
    simp [setRef,honline]
  simp only [hr,hoffline]
  obtain ⟨hrefs,hcontainer,hdirty⟩ := @processRemoveFromList_offline (m.invalidate ref) ref
  have hstays : (m.invalidate ref).threatContainer =
      (m.setOnlineOfflineState ref false).threatContainer := by
    rw [hinvalidate]
    rfl
  apply InOrder.of_sublist (h.setOffline ht)
  · intro hset
    apply hdirty
    rw [hinvalidate]
    exact hset
  · rw [← hstays,← hcontainer]
  · intro a ha
    have hmem : a ∈ (m.setOnlineOfflineState ref false).threatContainer := by
      rw [← hstays,← hcontainer]
      exact ha
    have hne := ne_of_mem_of_not_mem hmem hnot
    simp only [threatOf,Function.update_of_ne hne,hrefs]
    simp [hinvalidate,setRef,hne]

theorem InOrder.setTempThreatModifier (h : m.InOrder) (threat : ℚ) :
    (m.setTempThreatModifier ref threat).InOrder := by
  unfold ThreatManager.setTempThreatModifier
  cases hr : m.refs ref with
  | none => exact h
  | some r =>
    have hsame := @threatOf_setRef_same m ref r { r with tempThreatModifier := threat } hr rfl
    exact h.of_sublist id (.refl _) fun a _ => hsame a

theorem InOrder.clearReferences : m.clearReferences.InOrder := .inr List.Pairwise.nil

instance : Std.Total m.mayPrecede := ⟨fun a b => le_total (m.threatOf b) (m.threatOf a)⟩

instance : IsTrans Nat m.mayPrecede := ⟨fun _ _ _ hab hbc => le_trans hbc hab⟩

theorem update_sorted (h : m.InOrder) :
    m.update.threatContainer.Pairwise m.mayPrecede := by
  unfold update
  dsimp only
  split_ifs with hsort
  · exact List.pairwise_insertionSort m.mayPrecede _
  · rcases h with hdirty | hsorted
    · have hlen : m.threatContainer.length ≤ 1 := by
        by_contra hlen
        exact hsort ⟨hdirty,by omega⟩
      match hc : m.threatContainer with
      | [] => exact List.Pairwise.nil
      | [a] => exact List.pairwise_singleton _ _
      | a :: b :: l => simp [hc] at hlen
    · exact hsorted

theorem InOrder.getHostilTarget (h : m.InOrder) : (m.getHostilTarget w).1.InOrder := by
  have hsorted : m.update.threatContainer.Pairwise m.mayPrecede := update_sorted h
  exact .inr hsorted

/-- A call that meets the condition is carried out and leaves the container in order or marked. -/
theorem marked_run {call : ThreatCall} (ht : Tracked m) (h : m.InOrder)
    (hmarked : marked fuel w m call) :
    ∃ m' answer, run fuel w m call = some (m',answer) ∧ m'.InOrder := by
  have htracked : ∀ m ref threat m', coveredAddThreat w fuel m ref threat = some m' →
      Tracked m → Tracked m' := fun _ _ _ _ hm ht => ht.coveredAddThreat hm
  have hrec : ∀ m ref threat m', coveredAddThreat w fuel m ref threat = some m' → Tracked m →
      m.OrderedBut ref → m'.InOrder := fun _ _ _ _ hm ht h => h.coveredAddThreat ht hm
  have hmono : ∀ m ref threat m', coveredAddThreat w fuel m ref threat = some m' →
      refAddThreat w fuel m ref threat = some m' := fun _ _ _ _ hm => refAddThreat_of_covered hm
  cases call with
  | addThreat victim threat schoolMask threatSpell =>
    obtain ⟨m',hm⟩ := Option.isSome_iff_exists.mp hmarked
    exact ⟨m',none,congrArg (Option.map (·,none)) (addThreatWith_mono hmono hm),
      InOrder.addThreatWith htracked hrec ht h hm⟩
  | doAddThreat victim threat =>
    obtain ⟨m',hm⟩ := Option.isSome_iff_exists.mp hmarked
    exact ⟨m',none,congrArg (Option.map (·,none)) (doAddThreatWith_mono hmono hm),
      InOrder.doAddThreatWith htracked hrec ht h hm⟩
  | modifyThreatPercent victim percent =>
    simp only [run,modifyThreatPercent]
    cases hfound : m.getReferenceByTarget m.threatContainer victim with
    | none => exact ⟨m,none,rfl,h⟩
    | some ref =>
      obtain ⟨m',hm⟩ := Option.isSome_iff_exists.mp (hmarked ref hfound)
      exact ⟨m',none,congrArg (Option.map (·,none)) (refAddThreat_of_covered hm),
        h.orderedBut.coveredAddThreat ht hm⟩
  | refAddThreatPercent ref percent =>
    obtain ⟨m',hm⟩ := Option.isSome_iff_exists.mp hmarked
    exact ⟨m',none,congrArg (Option.map (·,none)) (refAddThreat_of_covered hm),
      h.orderedBut.coveredAddThreat ht hm⟩
  | tauntApply taunter =>
    simp only [run,tauntApply]
    cases hvictim : m.currentVictim with
    | none => exact ⟨m,none,rfl,h⟩
    | some victim =>
      cases hfound : m.getReferenceByTarget m.threatContainer taunter with
      | none => exact ⟨m,none,rfl,h⟩
      | some ref =>
        dsimp only
        split_ifs with hless
        · obtain ⟨m',hm⟩ := Option.isSome_iff_exists.mp
            (hmarked victim hvictim ref hfound hless.1 hless.2)
          have hne : m.threatOf victim-m.threatOf ref ≠ 0 := (sub_pos.mpr hless.1).ne'
          refine ⟨m',none,?_,?_⟩
          · simp only [addTempThreat,if_pos hne,refAddThreat_of_covered hm,Option.map_some]
          · have hk := @keeps_setTempThreatModifier m ref (m.threatOf victim-m.threatOf ref)
            exact (h.setTempThreatModifier _).orderedBut.coveredAddThreat (ht.keeps hk) hm
        · exact ⟨m,none,rfl,h⟩
  | tauntFadeOut taunter =>
    simp only [run,tauntFadeOut]
    cases hfound : m.getReferenceByTarget m.threatContainer taunter with
    | none => exact ⟨m,none,rfl,h⟩
    | some ref =>
      simp only [resetTempThreat]
      split_ifs with htemp
      · obtain ⟨m',hm⟩ := Option.isSome_iff_exists.mp (hmarked ref hfound htemp)
        refine ⟨m'.setTempThreatModifier ref 0,none,?_,?_⟩
        · rw [refAddThreat_of_covered hm]
          rfl
        · exact (h.orderedBut.coveredAddThreat ht hm).setTempThreatModifier 0
      · exact ⟨m,none,rfl,h⟩
  | setOnlineOfflineState ref isOnline => exact ⟨_,none,rfl,h.setOnlineOfflineState ht hmarked⟩
  | updateOnlineStatus ref => exact ⟨_,none,rfl,h.updateOnlineStatus ht hmarked⟩
  | removeReference ref => exact ⟨_,none,rfl,h.removeReference ht⟩
  | clearReferences => exact ⟨_,none,rfl,.clearReferences⟩
  | getHostilTarget => exact ⟨_,_,rfl,h.getHostilTarget⟩

/-- One call that meets the condition. -/
theorem InOrder.step {call : World × ThreatCall} {answer : Option Nat} (ht : Tracked m)
    (h : m.InOrder) (hm : Trace.Guarded Marked Step m call answer m') : m'.InOrder := by
  obtain ⟨⟨fuel,hmarked⟩,hstep⟩ := hm
  obtain ⟨m₁,answer₁,hrun,h₁⟩ := marked_run ht h hmarked
  rw [(step_unique hstep ⟨fuel,hrun⟩).1]
  exact h₁

end TrinityCore.Combat.ThreatManager
