import TrinityCore.Combat.Marked

set_option autoImplicit false

namespace TrinityCore.Combat.ThreatManager

def withOrder (m : ThreatManager) (l : List Nat) : ThreatManager := { m with threatContainer := l }

/-- The online references of the manager put in order of threat. References with the same threat
may stand in any order. -/
def Arranged (m m' : ThreatManager) : Prop :=
  ∃ l, l.Perm m.threatContainer ∧ m' = m.withOrder l ∧ m'.SortedByThreat

def SortedStep (m : ThreatManager) (call : World × ThreatCall) (answer : Option Nat)
    (m' : ThreatManager) : Prop :=
  ∃ before after, Arranged m before ∧ Step before call answer after ∧ Arranged after m'

variable {w : World} {m m' s s' : ThreatManager} {ref victim fuel fuel' : Nat}

/-- The second manager is the first with its online references in another order. -/
structure Sim (m s : ThreatManager) : Prop where
  tracked : Tracked m
  order : ∃ l, l.Perm m.threatContainer ∧ s = m.withOrder l

/-- What the first call returns is followed by what the second returns. -/
def Follow (o o' : Option ThreatManager) : Prop :=
  ∀ m, o = some m → ∃ s, o' = some s ∧ Sim m s

theorem Sim.follow (h : Sim m s) : Follow (some m) (some s) := by
  intro m' hm'
  cases hm'
  exact ⟨s,rfl,h⟩

theorem Follow.map {o o' : Option ThreatManager} {f : ThreatManager → ThreatManager}
    (h : Follow o o') (hf : ∀ m s, Sim m s → Sim (f m) (f s)) : Follow (o.map f) (o'.map f) := by
  intro m' hm'
  obtain ⟨m,hm,rfl⟩ := Option.map_eq_some_iff.mp hm'
  obtain ⟨s,hs,hsim⟩ := h m hm
  exact ⟨f s,by rw [hs]; rfl,hf m s hsim⟩

theorem Follow.bind {o o' : Option ThreatManager} {f : ThreatManager → Option ThreatManager}
    (h : Follow o o') (hf : ∀ m s, Sim m s → Follow (f m) (f s)) :
    Follow (o.bind f) (o'.bind f) := by
  intro m' hm'
  obtain ⟨m,hm,hfm⟩ := Option.bind_eq_some_iff.mp hm'
  obtain ⟨s,hs,hsim⟩ := h m hm
  rw [hs]
  exact hf m s hsim m' hfm

theorem Sim.keeps {f : ThreatManager → ThreatManager} (h : Sim m s) (hk : ∀ m, Keeps m (f m))
    (hf : ∀ m l, f (withOrder m l) = (f m).withOrder l) : Sim (f m) (f s) := by
  obtain ⟨l,hl,rfl⟩ := h.order
  exact ⟨h.tracked.keeps (hk m),l,by rw [(hk m).online]; exact hl,hf m l⟩

theorem refs_withOrder (l : List Nat) : (m.withOrder l).refs = m.refs := rfl

theorem setAccessibleState_withOrder (isAccessible : Bool) (l : List Nat) :
    (m.withOrder l).setAccessibleState ref isAccessible =
      (m.setAccessibleState ref isAccessible).withOrder l := by
  unfold setAccessibleState
  rw [refs_withOrder]
  cases m.refs ref <;> rfl

theorem relink_withOrder (l : List Nat) :
    (m.withOrder l).relink w ref = (m.relink w ref).withOrder l := by
  unfold relink
  rw [refs_withOrder]
  cases m.refs ref with
  | none => rfl
  | some r =>
    dsimp only
    split_ifs <;> rfl

theorem setTempThreatModifier_withOrder (threat : ℚ) (l : List Nat) :
    (m.withOrder l).setTempThreatModifier ref threat =
      (m.setTempThreatModifier ref threat).withOrder l := by
  unfold setTempThreatModifier
  rw [refs_withOrder]
  cases m.refs ref <;> rfl

theorem processThreatChange_withOrder (value : ℚ) (l : List Nat) :
    (m.withOrder l).processThreatChange ref value =
      (m.processThreatChange ref value).withOrder l := by
  unfold processThreatChange withOrder
  dsimp only
  split_ifs <;> rfl

theorem processOnlineStatus_online (isOnline : Bool) :
    (m.processOnlineStatus ref isOnline).threatContainer =
      if isOnline then m.threatContainer ++ [ref] else m.threatContainer.filter (· ≠ ref) := by
  unfold processOnlineStatus
  cases isOnline <;> simp only [Bool.not_false,Bool.not_true,if_true] <;> split_ifs <;> simp_all

theorem processOnlineStatus_withOrder (isOnline : Bool) (l : List Nat) :
    (m.withOrder l).processOnlineStatus ref isOnline =
      (m.processOnlineStatus ref isOnline).withOrder
        (if isOnline then l ++ [ref] else l.filter (· ≠ ref)) := by
  unfold processOnlineStatus withOrder threatOf
  dsimp only
  cases isOnline <;> simp only [Bool.not_false,Bool.not_true,if_true] <;> split_ifs <;> simp_all

theorem Sim.setOnlineOfflineState (h : Sim m s) (isOnline : Bool) :
    Sim (m.setOnlineOfflineState ref isOnline) (s.setOnlineOfflineState ref isOnline) := by
  obtain ⟨l,hl,rfl⟩ := h.order
  refine ⟨h.tracked.setOnlineOfflineState isOnline,?_⟩
  unfold ThreatManager.setOnlineOfflineState
  rcases Option.eq_none_or_eq_some (m.refs ref) with hr | ⟨r,hr⟩
  · have hr' : (m.withOrder l).refs ref = none := hr
    simp only [hr,hr']
    exact ⟨l,hl,rfl⟩
  have hr' : (m.withOrder l).refs ref = some r := hr
  simp only [hr,hr']
  split
  · generalize ({ r with
      online := isOnline, accessible := if isOnline then r.accessible else false }) = r'
    refine ⟨if isOnline then l ++ [ref] else l.filter (· ≠ ref),?_,
      processOnlineStatus_withOrder (m := m.setRef ref r') isOnline l⟩
    rw [processOnlineStatus_online]
    split
    · exact hl.append_right _
    · exact hl.filter _
  · exact ⟨l,hl,rfl⟩

theorem Sim.refs (h : Sim m s) : s.refs = m.refs := by
  obtain ⟨l,-,rfl⟩ := h.order
  rfl

theorem Sim.updateOnlineStatus (h : Sim m s) :
    Sim (m.updateOnlineStatus w ref) (s.updateOnlineStatus w ref) := by
  unfold ThreatManager.updateOnlineStatus
  dsimp only
  have h₁ : Sim (m.relink w ref) (s.relink w ref) :=
    h.keeps (fun _ => keeps_relink) (fun _ => relink_withOrder)
  rw [h₁.refs]
  cases (m.relink w ref).refs ref with
  | none => exact h₁
  | some r =>
    have h₂ : Sim ((m.relink w ref).setAccessibleState ref (w.onlineStatus r).2)
        ((s.relink w ref).setAccessibleState ref (w.onlineStatus r).2) :=
      h₁.keeps (fun _ => keeps_setAccessibleState (w.onlineStatus r).2)
        (fun _ => setAccessibleState_withOrder (w.onlineStatus r).2)
    exact h₂.setOnlineOfflineState (w.onlineStatus r).1

theorem Sim.setRef (h : Sim m s) {r r' : HostileReference} (hr : m.refs ref = some r)
    (honline : r'.online = r.online) (hunit : r'.unitGuid = r.unitGuid) :
    Sim (m.setRef ref r') (s.setRef ref r') := by
  obtain ⟨l,hl,rfl⟩ := h.order
  exact ⟨h.tracked.keeps (keeps_setRef hr honline hunit),l,hl,rfl⟩

theorem Sim.changeThreat (h : Sim m s) (threat : ℚ) :
    Sim (m.changeThreat w ref threat) (s.changeThreat w ref threat) := by
  unfold ThreatManager.changeThreat
  rw [h.refs]
  rcases Option.eq_none_or_eq_some (m.refs ref) with hr | ⟨r,hr⟩
  · simpa only [hr] using h
  simp only [hr]
  have h₁ : Sim (m.setRef ref { r with threat := r.threat+threat })
      (s.setRef ref { r with threat := r.threat+threat }) := h.setRef hr rfl rfl
  have h₂ : ∀ b : Bool, Sim
      (if b then (m.setRef ref { r with threat := r.threat+threat }).updateOnlineStatus w ref
        else m.setRef ref { r with threat := r.threat+threat })
      (if b then (s.setRef ref { r with threat := r.threat+threat }).updateOnlineStatus w ref
        else s.setRef ref { r with threat := r.threat+threat }) := by
    intro b
    split
    · exact h₁.updateOnlineStatus
    · exact h₁
  split
  · exact (h₂ _).keeps (fun _ => keeps_processThreatChange threat)
      (fun _ => processThreatChange_withOrder threat)
  · exact h₂ _

theorem Sim.guidOf (h : Sim m s) (ref : Nat) : s.guidOf ref = m.guidOf ref := by
  simp only [ThreatManager.guidOf,h.refs]

theorem Sim.addThreatToOwner {add : ThreatManager → Nat → Option ThreatManager} {threat : ℚ}
    (hadd : ∀ m s unit, Sim m s → Follow (add m unit) (add s unit)) (h : Sim m s) :
    Follow (m.addThreatToOwner w add ref threat) (s.addThreatToOwner w add ref threat) := by
  unfold ThreatManager.addThreatToOwner
  rw [h.refs,h.guidOf]
  split
  · split
    · split
      · exact hadd m s _ h
      · exact h.follow
    · exact h.follow
  · exact h.follow

theorem find_perm {p : Nat → Bool} {l l' : List Nat} (hl : l.Perm l')
    (hp : ∀ a b, p a = true → p b = true → a = b) : l.find? p = l'.find? p := by
  cases h : l'.find? p with
  | none =>
    rw [List.find?_eq_none] at h ⊢
    intro a ha
    exact h a (hl.mem_iff.mp ha)
  | some a =>
    have ha := List.find?_some h
    obtain ⟨b,hb⟩ := Option.isSome_iff_exists.mp
      (List.find?_isSome.mpr ⟨a,hl.mem_iff.mpr (List.mem_of_find?_eq_some h),ha⟩)
    rw [hb,hp b a (List.find?_some hb) ha]

theorem Sim.getReferenceByTarget (h : Sim m s) (victim : Nat) :
    s.getReferenceByTarget s.threatContainer victim =
      m.getReferenceByTarget m.threatContainer victim := by
  obtain ⟨l,hl,rfl⟩ := h.order
  apply find_perm hl
  have hunit : ∀ a, (m.refs a).any (fun r => r.unitGuid == victim) = true →
      m.unitOf a = some victim := by
    intro a ha
    rcases Option.eq_none_or_eq_some (m.refs a) with hr | ⟨r,hr⟩
    · simp [hr] at ha
    · simpa [unitOf,hr] using ha
  intro a b ha hb
  exact h.tracked.one a b victim (hunit a ha) (hunit b hb)

theorem Sim.getReferenceByTarget_offline (h : Sim m s) (victim : Nat) :
    s.getReferenceByTarget s.threatOfflineContainer victim =
      m.getReferenceByTarget m.threatOfflineContainer victim := by
  obtain ⟨l,-,rfl⟩ := h.order
  rfl

section Fuel

variable {rec : ThreatManager → Nat → ℚ → Option ThreatManager}
  (hrec : ∀ m s ref threat, Sim m s → Follow (rec m ref threat) (rec s ref threat))

include hrec

theorem Sim._addThreatWith {threat : ℚ} (h : Sim m s) :
    Follow (m._addThreatWith w rec victim threat) (s._addThreatWith w rec victim threat) := by
  unfold ThreatManager._addThreatWith
  rw [h.getReferenceByTarget,h.getReferenceByTarget_offline]
  cases hon : m.getReferenceByTarget m.threatContainer victim with
  | some ref => exact hrec m s ref threat h
  | none =>
    cases hoff : m.getReferenceByTarget m.threatOfflineContainer victim with
    | some ref => exact hrec m s ref threat h
    | none =>
      obtain ⟨l,hl,rfl⟩ := h.order
      have hnew : Sim (m.addReference victim) ((m.withOrder l).addReference victim) :=
        ⟨h.tracked.addReference hon hoff,l ++ [m.next],hl.append_right _,rfl⟩
      apply (hrec _ _ m.next threat hnew).map
      intro m₁ s₁ h₁
      split
      · exact h₁.setOnlineOfflineState false
      · exact h₁

theorem Sim.doAddThreatWith {threat : ℚ} (h : Sim m s) :
    Follow (m.doAddThreatWith w rec victim threat) (s.doAddThreatWith w rec victim threat) := by
  unfold ThreatManager.doAddThreatWith
  dsimp only
  split
  · split
    · split
      · exact (Sim._addThreatWith hrec h).bind fun _ _ h₁ => Sim._addThreatWith hrec h₁
      · exact Sim._addThreatWith hrec h
    · exact Sim._addThreatWith hrec h
  · exact Sim._addThreatWith hrec h

theorem Sim.addThreatWith {threat : ℚ} {schoolMask : Nat} {threatSpell : Option Nat}
    (h : Sim m s) : Follow (m.addThreatWith w rec victim threat schoolMask threatSpell)
      (s.addThreatWith w rec victim threat schoolMask threatSpell) := by
  unfold ThreatManager.addThreatWith
  split
  · exact Sim.doAddThreatWith hrec h
  · exact h.follow

end Fuel

theorem Sim.refAddThreat {threat : ℚ} (h : Sim m s) :
    Follow (refAddThreat w fuel m ref threat) (refAddThreat w fuel s ref threat) := by
  induction fuel generalizing m s ref threat with
  | zero =>
    intro m' hm'
    simp [ThreatManager.refAddThreat] at hm'
  | succ fuel ih =>
    have hrec : ∀ m s ref threat, Sim m s →
        Follow (ThreatManager.refAddThreat w fuel m ref threat)
          (ThreatManager.refAddThreat w fuel s ref threat) := fun _ _ _ _ h => ih h
    unfold ThreatManager.refAddThreat
    apply Sim.addThreatToOwner ?_ (h.changeThreat threat)
    intro m₁ s₁ unit h₁
    exact Sim.addThreatWith hrec h₁

theorem Sim.threatOf (h : Sim m s) (ref : Nat) : s.threatOf ref = m.threatOf ref := by
  simp only [ThreatManager.threatOf,h.refs]

theorem Sim.currentVictim (h : Sim m s) : s.currentVictim = m.currentVictim := by
  obtain ⟨l,-,rfl⟩ := h.order
  rfl

theorem Sim.refAddThreatPercent {percent : Int} (h : Sim m s) :
    Follow (m.refAddThreatPercent w fuel ref percent) (s.refAddThreatPercent w fuel ref percent) := by
  unfold ThreatManager.refAddThreatPercent
  rw [h.threatOf]
  exact h.refAddThreat

theorem Sim.modifyThreatPercent {percent : Int} (h : Sim m s) :
    Follow (m.modifyThreatPercent w fuel victim percent)
      (s.modifyThreatPercent w fuel victim percent) := by
  unfold ThreatManager.modifyThreatPercent
  rw [h.getReferenceByTarget]
  split
  · exact h.refAddThreatPercent
  · exact h.follow

theorem Sim.setTempThreatModifier (h : Sim m s) (threat : ℚ) :
    Sim (m.setTempThreatModifier ref threat) (s.setTempThreatModifier ref threat) :=
  h.keeps (fun _ => keeps_setTempThreatModifier threat)
    (fun _ => setTempThreatModifier_withOrder threat)

theorem Sim.tauntApply (h : Sim m s) :
    Follow (m.tauntApply w fuel victim) (s.tauntApply w fuel victim) := by
  unfold ThreatManager.tauntApply
  rw [h.getReferenceByTarget,h.currentVictim]
  split
  · rename_i current ref hcurrent hfound
    have htemp : s.tempThreatOf ref = m.tempThreatOf ref := by simp only [tempThreatOf,h.refs]
    rw [h.threatOf,h.threatOf,htemp]
    split
    · unfold addTempThreat
      dsimp only
      split
      · exact (h.setTempThreatModifier _).refAddThreat
      · exact (h.setTempThreatModifier _).follow
    · exact h.follow
  · exact h.follow

theorem Sim.tauntFadeOut (h : Sim m s) :
    Follow (m.tauntFadeOut w fuel victim) (s.tauntFadeOut w fuel victim) := by
  unfold ThreatManager.tauntFadeOut
  rw [h.getReferenceByTarget]
  split
  · rename_i ref hfound
    have htemp : s.tempThreatOf ref = m.tempThreatOf ref := by simp only [tempThreatOf,h.refs]
    unfold resetTempThreat
    rw [htemp]
    split
    · exact h.refAddThreat.map fun _ _ h₁ => h₁.setTempThreatModifier 0
    · exact h.follow
  · exact h.follow

theorem processRemoveFromList_withOrder (isOnline : Bool) (l : List Nat) :
    (m.withOrder l).processRemoveFromList ref isOnline =
      (m.processRemoveFromList ref isOnline).withOrder
        (if isOnline then l.filter (· ≠ ref) else l) := by
  unfold processRemoveFromList withOrder
  dsimp only
  split_ifs <;> rfl

theorem processRemoveFromList_online (isOnline : Bool) :
    (m.processRemoveFromList ref isOnline).threatContainer =
      if isOnline then m.threatContainer.filter (· ≠ ref) else m.threatContainer := by
  unfold processRemoveFromList
  dsimp only
  split_ifs <;> rfl

theorem Sim.invalidate (h : Sim m s) : Sim (m.invalidate ref) (s.invalidate ref) := by
  have h₁ : Sim (m.setOnlineOfflineState ref false) (s.setOnlineOfflineState ref false) :=
    h.setOnlineOfflineState false
  unfold ThreatManager.invalidate
  dsimp only
  rw [h₁.refs]
  rcases Option.eq_none_or_eq_some ((m.setOnlineOfflineState ref false).refs ref) with hr | ⟨r,hr⟩
  · simpa only [hr] using h₁
  · simp only [hr]
    exact h₁.setRef hr rfl rfl

theorem Sim.removeReference (h : Sim m s) : Sim (m.removeReference ref) (s.removeReference ref) := by
  refine ⟨h.tracked.removeReference,?_⟩
  unfold ThreatManager.removeReference
  rw [h.refs]
  cases m.refs ref with
  | none => exact h.order
  | some r =>
    have h₁ : Sim (m.invalidate ref) (s.invalidate ref) := h.invalidate
    dsimp only
    rw [h₁.refs]
    generalize ((m.invalidate ref).refs ref).any HostileReference.online = isOnline
    obtain ⟨l,hl,heq⟩ := h₁.order
    rw [heq]
    refine ⟨if isOnline then l.filter (· ≠ ref) else l,?_,?_⟩
    · rw [processRemoveFromList_online]
      split
      · exact hl.filter _
      · exact hl
    · rw [processRemoveFromList_withOrder]
      rfl

theorem Sim.clearReferences (h : Sim m s) : Sim m.clearReferences s.clearReferences := by
  refine ⟨h.tracked.clearReferences,[],.refl _,?_⟩
  obtain ⟨l,hl,rfl⟩ := h.order
  unfold ThreatManager.clearReferences withOrder
  simp only [hl.mem_iff]

theorem Sim.run {call : ThreatCall} {answer : Option Nat} (h : Sim m s)
    (hcall : call ≠ .getHostilTarget) (hm : run fuel w m call = some (m',answer)) :
    ∃ s', run fuel w s call = some (s',answer) ∧ Sim m' s' := by
  have hmap : ∀ {o o' : Option ThreatManager}, Follow o o' →
      o.map (·,(none : Option Nat)) = some (m',answer) →
      ∃ s', o'.map (·,(none : Option Nat)) = some (s',answer) ∧ Sim m' s' := by
    intro o o' ho heq
    obtain ⟨m₁,hm₁,heq⟩ := Option.map_eq_some_iff.mp heq
    cases heq
    obtain ⟨s₁,hs₁,h₁⟩ := ho _ hm₁
    exact ⟨s₁,by rw [hs₁]; rfl,h₁⟩
  have hrec : ∀ m s ref threat, Sim m s →
      Follow (ThreatManager.refAddThreat w fuel m ref threat)
        (ThreatManager.refAddThreat w fuel s ref threat) := fun _ _ _ _ h => h.refAddThreat
  cases call with
  | addThreat victim threat schoolMask threatSpell => exact hmap (Sim.addThreatWith hrec h) hm
  | doAddThreat victim threat => exact hmap (Sim.doAddThreatWith hrec h) hm
  | modifyThreatPercent victim percent => exact hmap h.modifyThreatPercent hm
  | refAddThreatPercent ref percent => exact hmap h.refAddThreatPercent hm
  | tauntApply taunter => exact hmap h.tauntApply hm
  | tauntFadeOut taunter => exact hmap h.tauntFadeOut hm
  | setOnlineOfflineState ref isOnline =>
    cases hm
    exact ⟨_,rfl,h.setOnlineOfflineState isOnline⟩
  | updateOnlineStatus ref =>
    cases hm
    exact ⟨_,rfl,h.updateOnlineStatus⟩
  | removeReference ref =>
    cases hm
    exact ⟨_,rfl,h.removeReference⟩
  | clearReferences =>
    cases hm
    exact ⟨_,rfl,h.clearReferences⟩
  | getHostilTarget => exact absurd rfl hcall

theorem Arranged.sim (h : Arranged s s') (hsim : Sim m s) : Sim m s' := by
  obtain ⟨l,hl,rfl,-⟩ := h
  obtain ⟨l',hl',rfl⟩ := hsim.order
  exact ⟨hsim.tracked,l,hl.trans hl',rfl⟩

theorem arranged_of_sim {l : List Nat} (hsim : Sim m s) (hl : l.Perm m.threatContainer)
    (hsorted : (m.withOrder l).SortedByThreat) : Arranged s (m.withOrder l) := by
  obtain ⟨l',hl',rfl⟩ := hsim.order
  exact ⟨l,hl.trans hl'.symm,rfl,hsorted⟩

theorem exists_arranged (m : ThreatManager) : ∃ m', Arranged m m' :=
  ⟨m.withOrder (m.threatContainer.insertionSort m.mayPrecede),_,List.perm_insertionSort _ _,rfl,
    List.pairwise_insertionSort m.mayPrecede _⟩

theorem update_withOrder {l : List Nat} (h : (m.withOrder l).SortedByThreat) :
    (m.withOrder l).update = { m with threatContainer := l, dirty := false } := by
  have hsort : l.insertionSort (m.withOrder l).mayPrecede = l := h.insertionSort_eq
  unfold update withOrder at *
  simp only [hsort,ite_self]

theorem Sim.getHostilTarget (h : Sim m s) (w : World)
    (horder : m.InOrder) : ∃ s', Arranged s s' ∧ s'.getHostilTarget w = m.getHostilTarget w := by
  have hsorted : (m.withOrder m.update.threatContainer).SortedByThreat := update_sorted horder
  refine ⟨_,arranged_of_sim h update_perm hsorted,?_⟩
  have heq : (m.withOrder m.update.threatContainer).update = m.update := update_withOrder hsorted
  simp only [ThreatManager.getHostilTarget,heq]

/-- A call on a container that is in order or marked is answered by a manager that is always in
order. -/
theorem Sim.step {call : World × ThreatCall} {answer : Option Nat} (h : Sim m s)
    (horder : m.InOrder) (hm : Step m call answer m') :
    ∃ s', SortedStep s call answer s' ∧ Sim m' s' := by
  obtain ⟨fuel,hm⟩ := hm
  have htracked := h.tracked.run hm
  by_cases hcall : call.2 = .getHostilTarget
  · obtain ⟨before,hbefore,heq⟩ := h.getHostilTarget call.1 horder
    obtain ⟨s',hs'⟩ := exists_arranged m'
    refine ⟨s',⟨before,m',hbefore,⟨fuel,?_⟩,hs'⟩,?_⟩
    · rw [hcall] at hm ⊢
      rw [← hm]
      exact congrArg some heq
    · exact hs'.sim ⟨htracked,m'.threatContainer,.refl _,rfl⟩
  · obtain ⟨before,hbefore⟩ := exists_arranged s
    obtain ⟨after,hafter,hsim⟩ := (hbefore.sim h).run hcall hm
    obtain ⟨s',hs'⟩ := exists_arranged after
    exact ⟨s',⟨before,after,hbefore,⟨fuel,hafter⟩,hs'⟩,hs'.sim hsim⟩

theorem sim_init : Sim init init := ⟨tracked_init,[],.refl _,rfl⟩

theorem inOrder_init : init.InOrder := .inr List.Pairwise.nil

/-- As long as every call marks the container or moves no reference past another, the victims are
those of a manager whose container is in order of threat at all times. -/
theorem victims_of_sorted {calls : List ((World × ThreatCall) × Option Nat)}
    (h : Trace.Runs (Trace.Guarded Marked Step) init calls m) :
    ∃ s, Trace.Runs SortedStep init calls s := by
  have hstep : ∀ (m : ThreatManager) call answer m' s, Sim m s ∧ m.InOrder →
      Trace.Guarded Marked Step m call answer m' →
      ∃ s', SortedStep s call answer s' ∧ Sim m' s' ∧ m'.InOrder := by
    intro m call answer m' s ⟨hsim,horder⟩ hm
    obtain ⟨s',hs',hsim'⟩ := hsim.step horder hm.2
    exact ⟨s',hs',hsim',horder.step hsim.tracked hm⟩
  obtain ⟨s,hruns,-⟩ := h.simulate hstep ⟨sim_init,inOrder_init⟩
  exact ⟨s,hruns⟩

/-- The victim gains threat and loses some of it, another unit becomes the victim, and the first
goes offline and comes back. -/
def overtakenRun : Option (ThreatManager × List ((World × ThreatCall) × Option Nat)) :=
  Trace.execute (fun m call => if marked 1 call.1 m call.2 then run 1 call.1 m call.2 else none) init
    [(openField [],.addThreat 5 100 1 none),(openField [],.getHostilTarget),
      (openField [],.addThreat 5 50 1 none),(openField [],.addThreat 6 200 1 none),
      (openField [],.getHostilTarget),(openField [],.modifyThreatPercent 5 (-10)),
      (openField [],.setOnlineOfflineState 0 false),(openField [],.setOnlineOfflineState 0 true),
      (openField [],.getHostilTarget)]

theorem victims_of_sorted_overtaken :
    ∃ calls, overtakenRun.map (fun result => result.2.map Prod.snd) =
        some [none,some 5,none,none,some 6,none,none,none,some 6] ∧
      overtakenRun.map Prod.snd = some calls ∧ ∃ s, Trace.Runs SortedStep init calls s := by
  have hsome : overtakenRun.isSome := by decide +kernel
  have hanswers : overtakenRun.map (fun result => result.2.map Prod.snd) =
      some [none,some 5,none,none,some 6,none,none,none,some 6] := by decide +kernel
  obtain ⟨⟨m,calls⟩,hrun⟩ := Option.isSome_iff_exists.mp hsome
  have hruns : Trace.Runs (Trace.Guarded Marked Step) init calls m := by
    refine Trace.runs_of_execute ?_ hrun
    intro m call m' answer h
    split at h
    · rename_i hmarked
      exact ⟨⟨1,hmarked⟩,1,h⟩
    · simp at h
  exact ⟨calls,hanswers,by rw [hrun]; rfl,victims_of_sorted hruns⟩

theorem Sim.tracked_right (h : Sim m s) : Tracked s := by
  obtain ⟨l,hl,rfl⟩ := h.order
  have ht := h.tracked
  exact {
    fresh := ht.fresh
    onlineNodup := hl.nodup_iff.mpr ht.onlineNodup
    offlineNodup := ht.offlineNodup
    online := fun ref => hl.mem_iff.trans (ht.online ref)
    offline := ht.offline
    one := ht.one
    victim := fun ref href => hl.mem_iff.mpr (ht.victim ref href) }

theorem Sim.getHostilTarget_answered (h : Sim m s) (w : World)
    (hanswer : (m.getHostilTarget w).2 = (s.getHostilTarget w).2) :
    Sim (m.getHostilTarget w).1 (s.getHostilTarget w).1 := by
  have htracked : Tracked (m.getHostilTarget w).1 := h.tracked.getHostilTarget
  have hright : Tracked (s.getHostilTarget w).1 := h.tracked_right.getHostilTarget
  have hrefs : (s.getHostilTarget w).1.refs = (m.getHostilTarget w).1.refs := h.refs
  have hvictim : (s.getHostilTarget w).1.currentVictim = (m.getHostilTarget w).1.currentVictim := by
    have hguid : (m.getHostilTarget w).1.currentVictim.map (m.getHostilTarget w).1.guidOf =
        (s.getHostilTarget w).1.currentVictim.map (s.getHostilTarget w).1.guidOf := hanswer
    have hguids : (s.getHostilTarget w).1.guidOf = (m.getHostilTarget w).1.guidOf := by
      funext a
      simp only [ThreatManager.guidOf,hrefs]
    have hunits : (s.getHostilTarget w).1.unitOf = (m.getHostilTarget w).1.unitOf := by
      funext a
      simp only [ThreatManager.unitOf,hrefs]
    rw [hguids] at hguid
    cases hv : (m.getHostilTarget w).1.currentVictim with
    | none => simpa [hv] using hguid
    | some a =>
      cases hv' : (s.getHostilTarget w).1.currentVictim with
      | none => simp [hv,hv'] at hguid
      | some b =>
        have ha := htracked.unitOf_of_mem (List.mem_append_left _ (htracked.victim a hv))
        have hb := hright.unitOf_of_mem (List.mem_append_left _ (hright.victim b hv'))
        have heq : (m.getHostilTarget w).1.guidOf a = (m.getHostilTarget w).1.guidOf b := by
          simpa [hv,hv'] using hguid
        rw [hunits,hguids,← heq] at hb
        rw [htracked.one a b _ ha hb]
  obtain ⟨l,hl,heq⟩ := h.order
  refine ⟨htracked,(s.getHostilTarget w).1.threatContainer,?_,?_⟩
  · have hperm : List.Perm s.update.threatContainer m.update.threatContainer := by
      apply update_perm.trans
      rw [heq]
      exact hl.trans update_perm.symm
    exact hperm
  · rw [heq] at hvictim ⊢
    simp only [ThreatManager.getHostilTarget] at hvictim ⊢
    simp only [hvictim]
    rfl

theorem Sim.answered {call : World × ThreatCall} {answer : Option Nat} (h : Sim m s)
    (hm : Step m call answer m') (hs : SortedStep s call answer s') : Sim m' s' := by
  obtain ⟨before,after,hbefore,hstep,hafter⟩ := hs
  have hsim := hbefore.sim h
  apply hafter.sim
  by_cases hcall : call.2 = .getHostilTarget
  · obtain ⟨fuel,hm⟩ := hm
    obtain ⟨fuel',hstep⟩ := hstep
    rw [hcall] at hm hstep
    have hm' : m.getHostilTarget call.1 = (m',answer) := Option.some.inj hm
    have hafter' : before.getHostilTarget call.1 = (after,answer) := Option.some.inj hstep
    have hresult := hsim.getHostilTarget_answered call.1 (by rw [hm',hafter'])
    rwa [hm',hafter'] at hresult
  · obtain ⟨fuel,hm⟩ := hm
    obtain ⟨after',hrun,hsim'⟩ := hsim.run hcall hm
    rw [(step_unique hstep ⟨fuel,hrun⟩).1]
    exact hsim'

/-- Unit 5 is the victim, 6 and 7 are hated more but not enough; then the threat of 6 goes down and
7 comes into melee range. -/
def outOfOrderRun : Option (ThreatManager × List ((World × ThreatCall) × Option Nat)) :=
  Trace.execute (fun m call => run 1 call.1 m call.2) init
    [(openField [],.addThreat 5 100 1 none),(openField [],.getHostilTarget),
      (openField [],.addThreat 6 120 1 none),(openField [],.addThreat 7 115 1 none),
      (openField [],.getHostilTarget),(openField [],.modifyThreatPercent 6 (-58))]

/-- Unit 5 stays the victim, but every manager in order of threat chooses 7. -/
theorem victims_of_sorted_fails :
    ∃ calls m, Trace.Runs Step init calls m ∧ ¬∃ s, Trace.Runs SortedStep init calls s := by
  have hsome : outOfOrderRun.isSome := by decide +kernel
  obtain ⟨⟨m,calls⟩,hrun⟩ := Option.isSome_iff_exists.mp hsome
  have hlazy : outOfOrderRun.map (fun result => (result.1.getHostilTarget (openField [7])).2) =
      some (some 5) := by decide +kernel
  have hsorted : outOfOrderRun.map (fun result =>
      decide (∀ l ∈ result.1.threatContainer.permutations', (result.1.withOrder l).SortedByThreat →
        ((result.1.withOrder l).getHostilTarget (openField [7])).2 = some 7)) = some true := by
    decide +kernel
  simp only [hrun,Option.map_some,Option.some.injEq,decide_eq_true_eq] at hlazy hsorted
  have hruns : Trace.Runs Step init calls m :=
    Trace.runs_of_execute (fun _ _ _ _ h => ⟨1,h⟩) hrun
  have hlast : Step m (openField [7],.getHostilTarget) (some 5)
      (m.getHostilTarget (openField [7])).1 := ⟨1,by rw [← hlazy]; rfl⟩
  refine ⟨calls ++ [((openField [7],.getHostilTarget),some 5)],_,
    hruns.append ⟨_,hlast,rfl⟩,?_⟩
  rintro ⟨s,hs⟩
  obtain ⟨mid,hmid,s',⟨before,after,hbefore,⟨fuel,hstep⟩,-⟩,-⟩ := hs.of_append
  have hsim : Sim m mid :=
    hruns.lockstep (fun _ _ _ _ _ _ h hm hs => h.answered hm hs) hmid sim_init
  obtain ⟨l,hl,heq⟩ := (hbefore.sim hsim).order
  obtain ⟨l',-,hbefore',hinorder⟩ := hbefore
  have hchosen := hsorted l (List.mem_permutations'.mpr hl) (heq ▸ hinorder)
  have hanswer : (before.getHostilTarget (openField [7])).2 = some 5 :=
    congrArg Prod.snd (Option.some.inj hstep)
  rw [heq,hchosen] at hanswer
  simp at hanswer

end TrinityCore.Combat.ThreatManager
