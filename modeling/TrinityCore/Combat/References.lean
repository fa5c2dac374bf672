import TrinityCore.Combat.ThreatManager
import TrinityCore.Lib.Trace

set_option autoImplicit false

namespace TrinityCore.Combat.ThreatManager

/-- The status of a reference that is not deleted. -/
def onlineOf (m : ThreatManager) (ref : Nat) : Option Bool :=
  (m.refs ref).map HostileReference.online

/-- The unit of a reference that is not deleted. -/
def unitOf (m : ThreatManager) (ref : Nat) : Option Nat :=
  (m.refs ref).map HostileReference.unitGuid

structure Tracked (m : ThreatManager) : Prop where
  fresh : ∀ ref, m.next ≤ ref → m.refs ref = none
  onlineNodup : m.threatContainer.Nodup
  offlineNodup : m.threatOfflineContainer.Nodup
  online : ∀ ref, ref ∈ m.threatContainer ↔ m.onlineOf ref = some true
  offline : ∀ ref, ref ∈ m.threatOfflineContainer ↔ m.onlineOf ref = some false
  one : ∀ a b unit, m.unitOf a = some unit → m.unitOf b = some unit → a = b
  victim : ∀ ref, m.currentVictim = some ref → ref ∈ m.threatContainer

theorem tracked_init : Tracked init where
  fresh := by simp [init]
  onlineNodup := by simp [init]
  offlineNodup := by simp [init]
  online := by simp [init,onlineOf]
  offline := by simp [init,onlineOf]
  one := by simp [init,unitOf]
  victim := by simp [init]

/-- A change that leaves the containers as they are, and the status and unit of the references. -/
structure Keeps (m m' : ThreatManager) : Prop where
  next : m'.next = m.next
  online : m'.threatContainer = m.threatContainer
  offline : m'.threatOfflineContainer = m.threatOfflineContainer
  victim : m'.currentVictim = m.currentVictim
  onlineOf : ∀ ref, m'.onlineOf ref = m.onlineOf ref
  unitOf : ∀ ref, m'.unitOf ref = m.unitOf ref

variable {w : World} {m m' m'' : ThreatManager} {ref victim : Nat}

theorem Keeps.refl : Keeps m m := ⟨rfl,rfl,rfl,rfl,fun _ => rfl,fun _ => rfl⟩

theorem onlineOf_eq_none : m.onlineOf ref = none ↔ m.refs ref = none := by simp [onlineOf]

theorem Tracked.keeps (h : Tracked m) (hk : Keeps m m') : Tracked m' where
  fresh := by
    intro ref href
    rw [hk.next] at href
    rw [← onlineOf_eq_none,hk.onlineOf,onlineOf_eq_none]
    exact h.fresh ref href
  onlineNodup := by simpa [hk.online] using h.onlineNodup
  offlineNodup := by simpa [hk.offline] using h.offlineNodup
  online := by simpa [hk.online,hk.onlineOf] using h.online
  offline := by simpa [hk.offline,hk.onlineOf] using h.offline
  one := by simpa [hk.unitOf] using h.one
  victim := by simpa [hk.victim,hk.online] using h.victim

theorem keeps_setRef {r r' : HostileReference} (h : m.refs ref = some r)
    (honline : r'.online = r.online) (hunit : r'.unitGuid = r.unitGuid) :
    Keeps m (m.setRef ref r') := by
  refine ⟨rfl,rfl,rfl,rfl,?_,?_⟩ <;> intro a <;> by_cases ha : a = ref
  · subst a
    simp [onlineOf,setRef,h,honline]
  · simp [onlineOf,setRef,ha]
  · subst a
    simp [unitOf,setRef,h,hunit]
  · simp [unitOf,setRef,ha]

theorem keeps_processThreatChange (value : ℚ) : Keeps m (m.processThreatChange ref value) := by
  unfold processThreatChange
  split_ifs
  · exact ⟨rfl,rfl,rfl,rfl,fun _ => rfl,fun _ => rfl⟩
  · exact .refl

theorem keeps_setAccessibleState (isAccessible : Bool) :
    Keeps m (m.setAccessibleState ref isAccessible) := by
  unfold setAccessibleState
  cases hr : m.refs ref with
  | none => exact .refl
  | some r => exact keeps_setRef hr rfl rfl

theorem keeps_relink : Keeps m (m.relink w ref) := by
  unfold relink
  cases hr : m.refs ref with
  | none => exact .refl
  | some r =>
    dsimp only
    split_ifs
    · exact keeps_setRef hr rfl rfl
    · exact .refl

theorem keeps_setTempThreatModifier (threat : ℚ) :
    Keeps m (m.setTempThreatModifier ref threat) := by
  unfold setTempThreatModifier
  cases hr : m.refs ref with
  | none => exact .refl
  | some r => exact keeps_setRef hr rfl rfl

theorem setOnlineOfflineState_eq {r : HostileReference} {isOnline : Bool}
    (h : m.refs ref = some r) (hne : r.online ≠ isOnline) :
    let m' := m.setOnlineOfflineState ref isOnline
    m'.next = m.next ∧
      m'.refs = Function.update m.refs ref (some { r with
        online := isOnline
        accessible := if isOnline then r.accessible else false }) ∧
      m'.threatContainer = (if isOnline then m.threatContainer ++ [ref]
        else m.threatContainer.filter (· ≠ ref)) ∧
      m'.threatOfflineContainer = (if isOnline then m.threatOfflineContainer.filter (· ≠ ref)
        else m.threatOfflineContainer ++ [ref]) ∧
      m'.currentVictim = (if m.currentVictim = some ref ∧ isOnline = false then none
        else m.currentVictim) := by
  dsimp only
  cases isOnline <;>
    simp only [setOnlineOfflineState,h,hne,ne_eq,if_true,processOnlineStatus,
      setRef] <;> split_ifs <;> simp_all

theorem Tracked.setOnlineOfflineState (h : Tracked m) (isOnline : Bool) :
    Tracked (m.setOnlineOfflineState ref isOnline) := by
  rcases Option.eq_none_or_eq_some (m.refs ref) with hr | ⟨r,hr⟩
  · simpa [ThreatManager.setOnlineOfflineState,hr] using h
  by_cases hne : r.online = isOnline
  · simpa [ThreatManager.setOnlineOfflineState,hr,hne] using h
  obtain ⟨hnext,hrefs,honline,hoffline,hvictim⟩ := setOnlineOfflineState_eq hr hne
  have hof : ∀ a, (m.setOnlineOfflineState ref isOnline).onlineOf a =
      if a = ref then some isOnline else m.onlineOf a := by
    intro a
    simp only [onlineOf,hrefs,Function.update_apply]
    split_ifs <;> simp
  have hstatus : m.onlineOf ref = some r.online := by simp [onlineOf,hr]
  have hon := h.online ref
  have hoff := h.offline ref
  constructor
  · intro a ha
    have hne' : a ≠ ref := by
      intro heq
      rw [heq,hnext] at ha
      simp [h.fresh ref ha] at hr
    rw [← onlineOf_eq_none,hof,if_neg hne',onlineOf_eq_none]
    exact h.fresh a (hnext ▸ ha)
  · rw [honline]
    cases isOnline
    · simpa using h.onlineNodup.filter _
    · have hnot : ref ∉ m.threatContainer := by simp_all
      simpa using h.onlineNodup.concat hnot
  · rw [hoffline]
    cases isOnline
    · have hnot : ref ∉ m.threatOfflineContainer := by simp_all
      simpa using h.offlineNodup.concat hnot
    · simpa using h.offlineNodup.filter _
  · intro a
    have ha := h.online a
    rw [honline,hof]
    cases isOnline <;> by_cases heq : a = ref <;> simp_all
  · intro a
    have ha := h.offline a
    rw [hoffline,hof]
    cases isOnline <;> by_cases heq : a = ref <;> simp_all
  · have hunit : ∀ a, (m.setOnlineOfflineState ref isOnline).unitOf a = m.unitOf a := by
      intro a
      by_cases heq : a = ref <;> simp [unitOf,hrefs,heq,hr]
    simpa only [hunit] using h.one
  · intro a ha
    rw [hvictim] at ha
    rw [honline]
    cases isOnline
    · simp only [and_true] at ha
      split_ifs at ha with hcur
      have hmem := h.victim a ha
      have hne' : a ≠ ref := by
        rintro rfl
        exact hcur ha
      simp [hmem,hne']
    · have hmem := h.victim a (by simpa using ha)
      simp [hmem]

theorem Tracked.updateOnlineStatus (h : Tracked m) : Tracked (m.updateOnlineStatus w ref) := by
  unfold ThreatManager.updateOnlineStatus
  dsimp only
  have hrelink : Tracked (m.relink w ref) := h.keeps keeps_relink
  generalize m.relink w ref = m₁ at hrelink
  cases m₁.refs ref with
  | none => exact hrelink
  | some r => exact (hrelink.keeps (keeps_setAccessibleState _)).setOnlineOfflineState _

theorem unitOf_ne_of_not_found {container : List Nat}
    (h : m.getReferenceByTarget container victim = none) {a : Nat} (ha : a ∈ container) :
    m.unitOf a ≠ some victim := by
  unfold getReferenceByTarget at h
  rw [List.find?_eq_none] at h
  have hnot := h a ha
  intro hunit
  obtain ⟨r,hr,hguid⟩ := Option.map_eq_some_iff.mp hunit
  simp [hr,hguid] at hnot

theorem Tracked.addReference (h : Tracked m) (hon : m.getReferenceByTarget m.threatContainer victim = none)
    (hoff : m.getReferenceByTarget m.threatOfflineContainer victim = none) :
    Tracked (m.addReference victim) := by
  have hfree := h.fresh m.next le_rfl
  have hstatus : m.onlineOf m.next = none := onlineOf_eq_none.mpr hfree
  have hnot : m.next ∉ m.threatContainer := by simp [h.online,hstatus]
  have hnot' : m.next ∉ m.threatOfflineContainer := by simp [h.offline,hstatus]
  -- a reference is in one of the containers, where none to the unit is found
  have hnone : ∀ a, m.unitOf a ≠ some victim := by
    intro a ha
    obtain ⟨r,hr,-⟩ := Option.map_eq_some_iff.mp ha
    cases honline : r.online with
    | true => exact unitOf_ne_of_not_found hon ((h.online a).mpr (by simp [onlineOf,hr,honline])) ha
    | false => exact unitOf_ne_of_not_found hoff ((h.offline a).mpr (by simp [onlineOf,hr,honline])) ha
  have hof : ∀ a, (m.addReference victim).onlineOf a =
      if a = m.next then some true else m.onlineOf a := by
    intro a
    by_cases heq : a = m.next <;> simp [onlineOf,ThreatManager.addReference,heq]
  have hunit : ∀ a, (m.addReference victim).unitOf a =
      if a = m.next then some victim else m.unitOf a := by
    intro a
    by_cases heq : a = m.next <;> simp [unitOf,ThreatManager.addReference,heq]
  constructor
  · intro a ha
    have hlt : m.next < a := ha
    rw [← onlineOf_eq_none,hof,if_neg (by omega),onlineOf_eq_none]
    exact h.fresh a (by omega)
  · simpa [ThreatManager.addReference] using h.onlineNodup.concat hnot
  · exact h.offlineNodup
  · intro a
    have ha := h.online a
    rw [hof]
    by_cases heq : a = m.next <;> simp_all [ThreatManager.addReference]
  · intro a
    have ha := h.offline a
    rw [hof]
    by_cases heq : a = m.next <;> simp_all [ThreatManager.addReference]
  · intro a b unit ha hb
    rw [hunit] at ha hb
    split_ifs at ha hb with hea heb
    · rw [hea,heb]
    · cases ha
      exact absurd hb (hnone b)
    · cases hb
      exact absurd ha (hnone a)
    · exact h.one a b unit ha hb
  · intro a ha
    have hmem := h.victim a ha
    simp [ThreatManager.addReference,hmem]

theorem Tracked.changeThreat (h : Tracked m) (modThreat : ℚ) :
    Tracked (m.changeThreat w ref modThreat) := by
  unfold ThreatManager.changeThreat
  rcases Option.eq_none_or_eq_some (m.refs ref) with hr | ⟨r,hr⟩
  · simpa only [hr] using h
  simp only [hr]
  have h₁ : Tracked (m.setRef ref { r with threat := r.threat+modThreat }) :=
    h.keeps (keeps_setRef hr rfl rfl)
  have h₂ : ∀ b : Bool, Tracked (if b then
      (m.setRef ref { r with threat := r.threat+modThreat }).updateOnlineStatus w ref
      else m.setRef ref { r with threat := r.threat+modThreat }) := by
    intro b
    split
    · exact h₁.updateOnlineStatus
    · exact h₁
  split
  · exact (h₂ _).keeps (keeps_processThreatChange modThreat)
  · exact h₂ _

theorem Tracked.addThreatToOwner {addThreat : ThreatManager → Nat → Option ThreatManager}
    (hadd : ∀ m unit m', addThreat m unit = some m' → Tracked m → Tracked m') {modThreat : ℚ}
    (hm : m.addThreatToOwner w addThreat ref modThreat = some m') (h : Tracked m) :
    Tracked m' := by
  unfold ThreatManager.addThreatToOwner at hm
  split at hm
  · split at hm
    · split at hm
      · exact hadd _ _ _ hm h
      · exact Option.some.inj hm ▸ h
    · exact Option.some.inj hm ▸ h
  · exact Option.some.inj hm ▸ h

section Fuel

variable {refAddThreat : ThreatManager → Nat → ℚ → Option ThreatManager}

variable (hrec : ∀ m ref threat m', refAddThreat m ref threat = some m' → Tracked m → Tracked m')

include hrec

theorem Tracked._addThreatWith {threat : ℚ}
    (hm : m._addThreatWith w refAddThreat victim threat = some m') (h : Tracked m) :
    Tracked m' := by
  unfold ThreatManager._addThreatWith at hm
  cases hon : m.getReferenceByTarget m.threatContainer victim with
  | some ref =>
    simp only [hon] at hm
    exact hrec m ref threat m' hm h
  | none =>
    cases hoff : m.getReferenceByTarget m.threatOfflineContainer victim with
    | some ref =>
      simp only [hon,hoff] at hm
      exact hrec m ref threat m' hm h
    | none =>
      simp only [hon,hoff,Option.map_eq_some_iff] at hm
      obtain ⟨m₁,hm₁,rfl⟩ := hm
      have h₁ := hrec _ _ _ m₁ hm₁ (h.addReference hon hoff)
      split_ifs
      · exact h₁.setOnlineOfflineState false
      · exact h₁

theorem Tracked.doAddThreatWith {threat : ℚ}
    (hm : m.doAddThreatWith w refAddThreat victim threat = some m') (h : Tracked m) :
    Tracked m' := by
  unfold ThreatManager.doAddThreatWith at hm
  dsimp only at hm
  split at hm
  · split at hm
    · split at hm
      · obtain ⟨m₁,hm₁,hm⟩ := Option.bind_eq_some_iff.mp hm
        exact Tracked._addThreatWith hrec hm (Tracked._addThreatWith hrec hm₁ h)
      · exact Tracked._addThreatWith hrec hm h
    · exact Tracked._addThreatWith hrec hm h
  · exact Tracked._addThreatWith hrec hm h

theorem Tracked.addThreatWith {threat : ℚ} {schoolMask : Nat} {threatSpell : Option Nat}
    (hm : m.addThreatWith w refAddThreat victim threat schoolMask threatSpell = some m')
    (h : Tracked m) : Tracked m' := by
  unfold ThreatManager.addThreatWith at hm
  split at hm
  · exact Tracked.doAddThreatWith hrec hm h
  · exact Option.some.inj hm ▸ h

end Fuel

theorem Tracked.refAddThreat {fuel : Nat} {threat : ℚ}
    (hm : refAddThreat w fuel m ref threat = some m') (h : Tracked m) : Tracked m' := by
  induction fuel generalizing m ref threat m' with
  | zero => simp [ThreatManager.refAddThreat] at hm
  | succ fuel ih =>
    rw [ThreatManager.refAddThreat] at hm
    apply Tracked.addThreatToOwner ?_ hm (h.changeThreat threat)
    intro m₁ unit m₂ hm₁ h₁
    exact Tracked.addThreatWith (fun _ _ _ _ hm h => ih hm h) hm₁ h₁

theorem Tracked.refAddThreatPercent {fuel : Nat} {percent : Int}
    (hm : m.refAddThreatPercent w fuel ref percent = some m') (h : Tracked m) : Tracked m' :=
  Tracked.refAddThreat hm h

theorem Tracked.modifyThreatPercent {fuel : Nat} {percent : Int}
    (hm : m.modifyThreatPercent w fuel victim percent = some m') (h : Tracked m) : Tracked m' := by
  unfold ThreatManager.modifyThreatPercent at hm
  split at hm
  · exact Tracked.refAddThreatPercent hm h
  · exact Option.some.inj hm ▸ h

theorem Tracked.addTempThreat {fuel : Nat} {threat : ℚ}
    (hm : m.addTempThreat w fuel ref threat = some m') (h : Tracked m) : Tracked m' := by
  unfold ThreatManager.addTempThreat at hm
  dsimp only at hm
  have h₁ : Tracked (m.setTempThreatModifier ref threat) :=
    h.keeps (keeps_setTempThreatModifier threat)
  split at hm
  · exact Tracked.refAddThreat hm h₁
  · exact Option.some.inj hm ▸ h₁

theorem Tracked.resetTempThreat {fuel : Nat} (hm : m.resetTempThreat w fuel ref = some m')
    (h : Tracked m) : Tracked m' := by
  unfold ThreatManager.resetTempThreat at hm
  split at hm
  · obtain ⟨m₁,hm₁,rfl⟩ := Option.map_eq_some_iff.mp hm
    exact (Tracked.refAddThreat hm₁ h).keeps (keeps_setTempThreatModifier 0)
  · exact Option.some.inj hm ▸ h

theorem Tracked.tauntApply {fuel : Nat} (hm : m.tauntApply w fuel victim = some m')
    (h : Tracked m) : Tracked m' := by
  unfold ThreatManager.tauntApply at hm
  split at hm
  · split at hm
    · exact Tracked.addTempThreat hm h
    · exact Option.some.inj hm ▸ h
  · exact Option.some.inj hm ▸ h

theorem Tracked.tauntFadeOut {fuel : Nat} (hm : m.tauntFadeOut w fuel victim = some m')
    (h : Tracked m) : Tracked m' := by
  unfold ThreatManager.tauntFadeOut at hm
  split at hm
  · exact Tracked.resetTempThreat hm h
  · exact Option.some.inj hm ▸ h

theorem onlineOf_setOnlineOfflineState (isOnline : Bool) :
    (m.setOnlineOfflineState ref isOnline).onlineOf ref =
      (m.onlineOf ref).map fun _ => isOnline := by
  rcases Option.eq_none_or_eq_some (m.refs ref) with hr | ⟨r,hr⟩
  · simp [ThreatManager.setOnlineOfflineState,onlineOf,hr]
  by_cases hne : r.online = isOnline
  · simp [ThreatManager.setOnlineOfflineState,onlineOf,hr,hne]
  · obtain ⟨-,hrefs,-⟩ := setOnlineOfflineState_eq hr hne
    simp [onlineOf,hrefs,hr]

theorem Tracked.delete (h : Tracked m) (hstatus : m.onlineOf ref = some false) :
    Tracked { m.processRemoveFromList ref false with refs := Function.update m.refs ref none } := by
  have hon : ref ∉ m.threatContainer := by simp [h.online,hstatus]
  have hne : m.currentVictim ≠ some ref := by
    intro heq
    exact hon (h.victim ref heq)
  have heq : { m.processRemoveFromList ref false with refs := Function.update m.refs ref none } =
      { m with
        refs := Function.update m.refs ref none
        threatOfflineContainer := m.threatOfflineContainer.filter (· ≠ ref) } := by
    simp [processRemoveFromList,hne]
  rw [heq]
  have hof : ∀ a, ((Function.update m.refs ref none) a).map HostileReference.online =
      if a = ref then none else m.onlineOf a := by
    intro a
    by_cases ha : a = ref <;> simp [onlineOf,ha]
  constructor
  · intro a ha
    by_cases heq : a = ref
    · simp [heq]
    · simpa [heq] using h.fresh a ha
  · exact h.onlineNodup
  · exact h.offlineNodup.filter _
  · intro a
    have ha := h.online a
    rw [onlineOf,hof]
    by_cases heq : a = ref <;> simp_all
  · intro a
    have ha := h.offline a
    rw [onlineOf,hof]
    by_cases heq : a = ref <;> simp_all
  · intro a b unit ha hb
    by_cases hea : a = ref
    · simp [unitOf,hea] at ha
    by_cases heb : b = ref
    · simp [unitOf,heb] at hb
    · exact h.one a b unit (by simpa [unitOf,hea] using ha) (by simpa [unitOf,heb] using hb)
  · exact h.victim

theorem invalidate_eq {r : HostileReference} (hr : m.refs ref = some r) :
    ∃ r₁, (m.setOnlineOfflineState ref false).refs ref = some r₁ ∧ r₁.online = false ∧
      m.invalidate ref = (m.setOnlineOfflineState ref false).setRef ref { r₁ with valid := false } := by
  have hstatus : (m.setOnlineOfflineState ref false).onlineOf ref = some false := by
    rw [onlineOf_setOnlineOfflineState]
    simp [onlineOf,hr]
  obtain ⟨r₁,hr₁,honline⟩ := Option.map_eq_some_iff.mp hstatus
  exact ⟨r₁,hr₁,honline,by simp only [invalidate,hr₁]⟩

theorem Tracked.removeReference (h : Tracked m) : Tracked (m.removeReference ref) := by
  unfold ThreatManager.removeReference
  rcases Option.eq_none_or_eq_some (m.refs ref) with hr | ⟨r,hr⟩
  · simpa only [hr] using h
  have h₁ : Tracked (m.setOnlineOfflineState ref false) := h.setOnlineOfflineState false
  obtain ⟨r₁,hr₁,honline,hinvalidate⟩ := invalidate_eq hr
  have hk : Keeps (m.setOnlineOfflineState ref false) (m.invalidate ref) := by
    rw [hinvalidate]
    exact keeps_setRef hr₁ rfl rfl
  have hstatus : (m.invalidate ref).onlineOf ref = some false := by
    rw [hk.onlineOf]
    simp [onlineOf,hr₁,honline]
  have hoffline : ((m.invalidate ref).refs ref).any HostileReference.online = false := by
    rw [hinvalidate]
    simp [setRef,honline]
  simp only [hr,hoffline]
  have hdelete := (h₁.keeps hk).delete hstatus
  have hrefs : ((m.invalidate ref).processRemoveFromList ref false).refs =
      (m.invalidate ref).refs := by
    unfold processRemoveFromList
    split_ifs <;> rfl
  rw [hrefs]
  exact hdelete

theorem Tracked.clearReferences (h : Tracked m) : Tracked m.clearReferences := by
  have hnone : ∀ a, m.clearReferences.refs a = none := by
    intro a
    simp only [ThreatManager.clearReferences]
    split_ifs with ha
    · rfl
    rw [← onlineOf_eq_none]
    rw [h.online,h.offline] at ha
    rcases Option.eq_none_or_eq_some (m.onlineOf a) with hs | ⟨b,hs⟩
    · exact hs
    · cases b <;> simp [hs] at ha
  constructor
  · intro a _
    exact hnone a
  · simp [ThreatManager.clearReferences]
  · simp [ThreatManager.clearReferences]
  · intro a
    rw [onlineOf_eq_none.mpr (hnone a)]
    simp [ThreatManager.clearReferences]
  · intro a
    rw [onlineOf_eq_none.mpr (hnone a)]
    simp [ThreatManager.clearReferences]
  · intro a b unit ha
    simp [unitOf,hnone] at ha
  · intro a ha
    simp [ThreatManager.clearReferences] at ha

theorem update_perm : List.Perm m.update.threatContainer m.threatContainer := by
  unfold update
  dsimp only
  split_ifs
  · exact List.perm_insertionSort _ _
  · exact .refl _

theorem Tracked.update (h : Tracked m) : Tracked m.update where
  fresh := h.fresh
  onlineNodup := update_perm.nodup_iff.mpr h.onlineNodup
  offlineNodup := h.offlineNodup
  online := fun ref => update_perm.mem_iff.trans (h.online ref)
  offline := h.offline
  one := h.one
  victim := fun ref href => update_perm.mem_iff.mpr (h.victim ref href)

theorem selects_mem {currentVictim : Option Nat} {currentRef : Nat}
    (h : m.selects w currentVictim currentRef = some ref) :
    ref = currentRef ∨ currentVictim = some ref := by
  unfold selects at h
  split_ifs at h
  cases currentVictim with
  | none =>
    simp only [Option.some.injEq] at h
    exact .inl h.symm
  | some victim =>
    dsimp only at h
    split_ifs at h <;> simp_all

theorem selectFrom_mem {container : List Nat} {currentVictim : Option Nat} {list : List Nat}
    (h : m.selectFrom w container currentVictim list = some ref) (hlist : ∀ a ∈ list, a ∈ container)
    (hvictim : ∀ a, currentVictim = some a → a ∈ container) : ref ∈ container := by
  induction list generalizing currentVictim with
  | nil => simp [selectFrom] at h
  | cons currentRef rest ih =>
    have hrest : ∀ a ∈ rest, a ∈ container := fun a ha => hlist a (List.mem_cons_of_mem _ ha)
    unfold selectFrom at h
    split at h
    · cases rest with
      | nil =>
        obtain ⟨a,ha,hsel⟩ := List.exists_of_findSome?_eq_some h
        rcases selects_mem hsel with rfl | hcur
        · exact ha
        · exact hvictim ref hcur
      | cons next rest =>
        apply ih h hrest
        intro a ha
        split_ifs at ha
        exact hvictim a ha
    · cases hsel : m.selects w currentVictim currentRef with
      | none =>
        simp only [hsel] at h
        exact ih h hrest hvictim
      | some victim =>
        simp only [hsel,Option.some.injEq] at h
        subst victim
        rcases selects_mem hsel with rfl | hcur
        · exact hlist ref List.mem_cons_self
        · exact hvictim ref hcur

theorem Tracked.getHostilTarget (h : Tracked m) : Tracked (m.getHostilTarget w).1 := by
  have h₁ := h.update
  exact {
    fresh := h₁.fresh
    onlineNodup := h₁.onlineNodup
    offlineNodup := h₁.offlineNodup
    online := h₁.online
    offline := h₁.offline
    one := h₁.one
    victim := fun ref href => selectFrom_mem href (fun _ ha => ha) h₁.victim }

theorem Tracked.run {fuel : Nat} {call : ThreatCall} {answer : Option Nat}
    (hm : run fuel w m call = some (m',answer)) (h : Tracked m) : Tracked m' := by
  have hmap : ∀ {o : Option ThreatManager}, (∀ m₁, o = some m₁ → Tracked m₁) →
      o.map (·,(none : Option Nat)) = some (m',answer) → Tracked m' := by
    intro o ho heq
    obtain ⟨m₁,hm₁,heq⟩ := Option.map_eq_some_iff.mp heq
    cases heq
    exact ho _ hm₁
  have hrec : ∀ m ref threat m', ThreatManager.refAddThreat w fuel m ref threat = some m' →
      Tracked m → Tracked m' := fun _ _ _ _ hm h => Tracked.refAddThreat hm h
  cases call with
  | addThreat victim threat schoolMask threatSpell =>
    exact hmap (fun _ hm₁ => Tracked.addThreatWith hrec hm₁ h) hm
  | doAddThreat victim threat => exact hmap (fun _ hm₁ => Tracked.doAddThreatWith hrec hm₁ h) hm
  | modifyThreatPercent victim percent =>
    exact hmap (fun _ hm₁ => Tracked.modifyThreatPercent hm₁ h) hm
  | refAddThreatPercent ref percent =>
    exact hmap (fun _ hm₁ => Tracked.refAddThreatPercent hm₁ h) hm
  | tauntApply taunter => exact hmap (fun _ hm₁ => Tracked.tauntApply hm₁ h) hm
  | tauntFadeOut taunter => exact hmap (fun _ hm₁ => Tracked.tauntFadeOut hm₁ h) hm
  | setOnlineOfflineState ref isOnline =>
    cases hm
    exact h.setOnlineOfflineState isOnline
  | updateOnlineStatus ref =>
    cases hm
    exact h.updateOnlineStatus
  | removeReference ref =>
    cases hm
    exact h.removeReference
  | clearReferences =>
    cases hm
    exact h.clearReferences
  | getHostilTarget =>
    have heq : (m.getHostilTarget w).1 = m' := by
      have := Option.some.inj hm
      rw [this]
    exact heq ▸ h.getHostilTarget

theorem tracked_of_runs {calls : List ((World × ThreatCall) × Option Nat)}
    (h : Trace.Runs Step init calls m) : Tracked m := by
  apply h.inv ?_ tracked_init
  intro s call answer s' hs hstep
  obtain ⟨fuel,hrun⟩ := hstep
  exact hs.run hrun

theorem Tracked.unitOf_of_mem (h : Tracked m) {a : Nat}
    (ha : a ∈ m.threatContainer ++ m.threatOfflineContainer) : m.unitOf a = some (m.guidOf a) := by
  rcases Option.eq_none_or_eq_some (m.refs a) with hr | ⟨r,hr⟩
  · rw [← onlineOf_eq_none] at hr
    rcases List.mem_append.mp ha with ha | ha
    · simp [(h.online a).mp ha] at hr
    · simp [(h.offline a).mp ha] at hr
  · simp [unitOf,guidOf,hr]

/-- In every state that calls lead to, a reference is in the container of its status, once, and in
no other; no two references are to one unit; the current victim is online. -/
theorem references_in_one_container {calls : List ((World × ThreatCall) × Option Nat)}
    (h : Trace.Runs Step init calls m) :
    (∀ ref r, m.refs ref = some r →
      m.threatContainer.count ref = (if r.online then 1 else 0) ∧
      m.threatOfflineContainer.count ref = (if r.online then 0 else 1)) ∧
    (∀ ref ∈ m.threatContainer ++ m.threatOfflineContainer, (m.refs ref).isSome) ∧
    ((m.threatContainer ++ m.threatOfflineContainer).map m.guidOf).Nodup ∧
    ∀ ref, m.currentVictim = some ref → ref ∈ m.threatContainer := by
  have ht := tracked_of_runs h
  refine ⟨?_,?_,?_,ht.victim⟩
  · intro ref r hr
    have hstatus : m.onlineOf ref = some r.online := by simp [onlineOf,hr]
    have hon := ht.online ref
    have hoff := ht.offline ref
    rw [hstatus] at hon hoff
    rw [ht.onlineNodup.count,ht.offlineNodup.count]
    cases honline : r.online <;> simp_all
  · intro ref href
    have hstatus : m.onlineOf ref ≠ none := by
      rcases List.mem_append.mp href with href | href
      · simp [(ht.online ref).mp href]
      · simp [(ht.offline ref).mp href]
    rw [Option.isSome_iff_ne_none]
    simpa [onlineOf_eq_none] using hstatus
  · apply List.Nodup.map_on
    · intro a ha b hb hguid
      exact ht.one a b (m.guidOf a) (ht.unitOf_of_mem ha) (hguid ▸ ht.unitOf_of_mem hb)
    · rw [List.nodup_append]
      refine ⟨ht.onlineNodup,ht.offlineNodup,?_⟩
      intro a ha b hb heq
      subst b
      have h₁ := (ht.online a).mp ha
      rw [(ht.offline a).mp hb] at h₁
      simp at h₁

/-- Two units are hated, one of them goes offline, the other becomes the victim. -/
def offlineRun : Option (ThreatManager × List ((World × ThreatCall) × Option Nat)) :=
  Trace.execute (fun m call => run 1 call.1 m call.2) init
    [(openField [],.addThreat 7 10 1 none),(openField [],.addThreat 8 20 1 none),
      (openField [],.setOnlineOfflineState 1 false),(openField [],.getHostilTarget)]

theorem references_in_one_container_offline :
    ∃ m calls, offlineRun = some (m,calls) ∧ m.threatContainer = [0] ∧
      m.threatOfflineContainer = [1] ∧ m.currentVictim = some 0 ∧
      ((m.threatContainer ++ m.threatOfflineContainer).map m.guidOf).Nodup := by
  have hsome : offlineRun.isSome := by decide +kernel
  obtain ⟨⟨m,calls⟩,hrun⟩ := Option.isSome_iff_exists.mp hsome
  have hstates : offlineRun.map (fun result => (result.1.threatContainer,
      result.1.threatOfflineContainer,result.1.currentVictim)) = some ([0],[1],some 0) := by
    decide +kernel
  simp only [hrun,Option.map_some,Option.some.injEq,Prod.mk.injEq] at hstates
  have hruns : Trace.Runs Step _ calls m :=
    Trace.runs_of_execute (fun _ _ _ _ h => ⟨1,h⟩) hrun
  exact ⟨m,calls,hrun,hstates.1,hstates.2.1,hstates.2.2,
    (references_in_one_container hruns).2.2.1⟩

end TrinityCore.Combat.ThreatManager
