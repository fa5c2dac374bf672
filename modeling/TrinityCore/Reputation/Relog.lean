import TrinityCore.Reputation.Counters

set_option autoImplicit false

namespace TrinityCore.Reputation

variable {w : World} {mgr mgr' : ReputationMgr} {e : FactionEntry} {faction : FactionState}

def initialState (w : World) (e : FactionEntry) : FactionState :=
  ⟨e.ID,e.reputationListID.toNat,0,getDefaultStateFlags w e,true⟩

def FactionState.row (faction : FactionState) : Row := ⟨faction.standing,faction.flags,0⟩

def isHostile (w : World) (e : FactionEntry) (standing : Int) : Bool :=
  decide ((reputationToRank (getBaseReputation w e+standing)).level ≤ ReputationRank.hostile.level)

/-- Every listed faction has a state, filed under its list id, of which the relation holds. -/
structure Each (w : World) (R : FactionEntry → FactionState → Prop) (mgr : ReputationMgr) :
    Prop where
  filed : Filed w mgr
  each : ∀ e ∈ w.store.entries, e.canHaveReputation = true →
    ∃ faction, mgr.find? e.reputationListID = some faction ∧ R e faction

section Changes

variable {R : FactionEntry → FactionState → Prop}

theorem Each.of_find? (h : Each w R mgr) (he : e ∈ w.store.entries)
    (hfind : mgr.find? e.reputationListID = some faction) : R e faction := by
  obtain ⟨faction',hfind',hrel⟩ := h.each e he (canHaveReputation_of_find? hfind)
  rw [hfind] at hfind'
  exact Option.some.inj hfind' ▸ hrel

theorem Each.changed (h : Each w R mgr) (he : e ∈ w.store.entries)
    (hfind : mgr.find? e.reputationListID = some faction) {changed : FactionState}
    (hset : mgr'.factions = mgr.factions.insert changed.reputationListID changed)
    (hkey : changed.reputationListID = faction.reputationListID) (hid : changed.ID = faction.ID)
    (hrel : R e faction → R e changed) : Each w R mgr' := by
  obtain ⟨hkey₀,hid₀⟩ := entry_of_filed h.filed he hfind
  have hlist := canHaveReputation_of_find? hfind
  rw [hkey,hkey₀] at hset
  refine ⟨h.filed.insert he hlist (hkey.trans hkey₀) (hid₀.trans hid.symm) hset,?_⟩
  intro e' he' hlist'
  rw [find?_changed he hlist hset he']
  split_ifs with heq
  · exact ⟨changed,rfl,heq ▸ hrel (h.of_find? he hfind)⟩
  · exact h.each e' he' hlist'

theorem Each.setOneFactionReputation (h : Each w R mgr) (he : e ∈ w.store.entries)
    (standing : Int) (incremental : Bool)
    (hrel : ∀ faction standing, R e faction → R e (faction.receive standing (getBaseReputation w e))) :
    Each w R (mgr.setOneFactionReputation w e standing incremental).1 := by
  cases hfind : mgr.find? e.reputationListID with
  | none =>
    unfold ReputationMgr.setOneFactionReputation
    rw [hfind]
    exact h
  | some faction =>
    obtain ⟨standing',-,heq⟩ := setOneFactionReputation_eq (w := w) hfind standing incremental
    rw [heq]
    have hshown := receive_shows faction standing' (getBaseReputation w e) 0
    exact h.changed he hfind rfl hshown.key hshown.id (hrel faction standing')

theorem Each.setVisible (h : Each w R mgr) (he : e ∈ w.store.entries)
    (hrel : ∀ faction, R e faction → R e (faction.setVisible 0).1) :
    Each w R (mgr.setVisible e) := by
  unfold ReputationMgr.setVisible
  split
  · exact h
  · rename_i faction hfind
    have hshown := setVisible_shows faction mgr.visibleFactionCount
    refine h.changed he hfind rfl hshown.key hshown.id ?_
    rw [setVisible_fst _ mgr.visibleFactionCount 0]
    exact hrel faction

theorem Each.setAtWar (h : Each w R mgr) (k : Nat) (on : Bool)
    (hrel : ∀ e ∈ w.store.entries, e.reputationListID = k → ∀ faction,
      mgr.find? e.reputationListID = some faction →
      (faction.flags.invisibleForced || faction.flags.hidden) = false → R e faction →
      R e (faction.setAtWar on)) : Each w R (mgr.setAtWar k on) := by
  unfold ReputationMgr.setAtWar
  split
  · exact h
  · rename_i faction hfind
    split_ifs with hforced
    · exact h
    · obtain ⟨e,he,-,hlist,hfind'⟩ := h.filed.entry hfind
      have hsame := setAtWar_same faction on
      exact h.changed he hfind' rfl hsame.key hsame.id
        (hrel e he hlist faction hfind' (Bool.eq_false_iff.mpr hforced))

theorem set_find? (h : Filed w mgr) (he : e ∈ w.store.entries)
    (hfind : mgr.find? e.reputationListID = some faction) {changed : FactionState}
    (hs : faction.SameCounted changed) :
    (mgr.set changed).find? e.reputationListID = some changed := by
  apply find?_changed_self he (canHaveReputation_of_find? hfind)
  rw [← (entry_of_filed h he hfind).1,← hs.key]
  rfl

theorem setAtWar_find? (h : Filed w mgr) (he : e ∈ w.store.entries) {k : Nat}
    (hlist : e.reputationListID = k) (hfind : mgr.find? e.reputationListID = some faction)
    (hforced : (faction.flags.invisibleForced || faction.flags.hidden) = false) (on : Bool) :
    (mgr.setAtWar k on).find? e.reputationListID = some (faction.setAtWar on) := by
  have hset := set_find? h he hfind (setAtWar_same faction on)
  rw [find?_eq (canHaveReputation_of_find? hfind),hlist,Int.toNat_natCast] at hfind
  unfold ReputationMgr.setAtWar
  rw [hfind]
  dsimp only
  rwa [if_neg (by simp [hforced])]

theorem setInactive_find? (h : Filed w mgr) (he : e ∈ w.store.entries) {k : Nat}
    (hlist : e.reputationListID = k) (hfind : mgr.find? e.reputationListID = some faction)
    (on : Bool) :
    (mgr.setInactive k on).find? e.reputationListID = some (faction.setInactive on) := by
  have hset := set_find? h he hfind (setInactive_same faction on)
  rw [find?_eq (canHaveReputation_of_find? hfind),hlist,Int.toNat_natCast] at hfind
  unfold ReputationMgr.setInactive
  rwa [hfind]

theorem Each.setInactive (h : Each w R mgr) (k : Nat) (on : Bool)
    (hrel : ∀ e ∈ w.store.entries, e.reputationListID = k → ∀ faction,
      mgr.find? e.reputationListID = some faction → R e faction →
      R e (faction.setInactive on)) : Each w R (mgr.setInactive k on) := by
  unfold ReputationMgr.setInactive
  split
  · exact h
  · rename_i faction hfind
    obtain ⟨e,he,-,hlist,hfind'⟩ := h.filed.entry hfind
    have hsame := setInactive_same faction on
    exact h.changed he hfind' rfl hsame.key hsame.id (hrel e he hlist faction hfind')

end Changes

theorem setVisible_flags (faction : FactionState) (count : BitVec 8) :
    (faction.setVisible count).1.flags = { faction.flags with
      visible := faction.flags.visible || !faction.staysInvisible } := by
  unfold FactionState.setVisible
  obtain ⟨ID,list,standing,⟨visible,atWar,hidden,forced,peace,inactive,rival,special⟩,save⟩ := faction
  split_ifs <;> simp_all

theorem setAtWar_flags (faction : FactionState) (on : Bool) :
    (faction.setAtWar on).flags = { faction.flags with
      atWar := on && (faction.flags.atWar || !faction.flags.peaceForced) } := by
  unfold FactionState.setAtWar
  obtain ⟨ID,list,standing,⟨visible,atWar,hidden,forced,peace,inactive,rival,special⟩,save⟩ := faction
  split_ifs <;> simp_all

theorem setInactive_flags (faction : FactionState) (on : Bool) :
    (faction.setInactive on).flags = { faction.flags with
      inactive := on && (faction.flags.inactive || !(faction.flags.invisibleForced ||
        faction.flags.hidden || !faction.flags.visible)) } := by
  unfold FactionState.setInactive
  obtain ⟨ID,list,standing,⟨visible,atWar,hidden,forced,peace,inactive,rival,special⟩,save⟩ := faction
  split_ifs <;> simp_all
  grind

theorem loadAtWar_flags (faction : FactionState) (atWar : Bool) (rank : ReputationRank) :
    (faction.loadAtWar atWar rank).flags = { faction.flags with
      atWar := if rank.level ≤ ReputationRank.hostile.level ∧ faction.flags.peaceForced = false
        then true
        else if atWar then faction.flags.atWar || !faction.flags.peaceForced
        else faction.flags.atWar && !faction.flags.visible } := by
  unfold FactionState.loadAtWar
  obtain ⟨ID,list,standing,⟨visible,atWar,hidden,forced,peace,inactive,rival,special⟩,save⟩ := faction
  split_ifs <;> simp_all [setAtWar_flags]

def FactionFlags.loaded (default row : FactionFlags) (hostile : Prop) [Decidable hostile] :
    FactionFlags :=
  let visible := default.visible || (row.visible &&
    !((default.invisibleForced || default.hidden) && !default.special))
  { default with
    visible := visible
    inactive := default.inactive || (row.inactive &&
      !(default.invisibleForced || default.hidden || !visible))
    atWar := if hostile ∧ default.peaceForced = false then true
      else if row.atWar then default.atWar || !default.peaceForced
      else default.atWar && !visible }

theorem loadShown_flags (faction : FactionState) (row : Row) (count : BitVec 8) :
    (faction.loadShown row count).1.flags = { faction.flags with
      visible := faction.flags.visible || (row.low.visible && !faction.staysInvisible) } := by
  unfold FactionState.loadShown
  split_ifs with hrow
  · rw [setVisible_flags,hrow,Bool.true_and]
    rfl
  · rw [Bool.eq_false_iff.mpr hrow,Bool.false_and,Bool.or_false]

theorem loadQuiet_flags (faction : FactionState) (row : Row) (count : BitVec 8) :
    (faction.loadQuiet row count).flags = { (faction.loadShown row count).1.flags with
      inactive := (faction.loadShown row count).1.flags.inactive || (row.low.inactive &&
        !((faction.loadShown row count).1.flags.invisibleForced ||
          (faction.loadShown row count).1.flags.hidden ||
          !(faction.loadShown row count).1.flags.visible)) } := by
  unfold FactionState.loadQuiet
  split_ifs with hrow
  · rw [setInactive_flags,hrow,Bool.true_and,Bool.true_and]
  · rw [Bool.eq_false_iff.mpr hrow,Bool.false_and,Bool.or_false]

theorem load_flags (faction : FactionState) (row : Row) (baseRep : Int) (count : BitVec 8) :
    (faction.load row baseRep count).1.flags = faction.flags.loaded row.low
      ((reputationToRank (baseRep+row.standing)).level ≤ ReputationRank.hostile.level) := by
  have hload : (faction.load row baseRep count).1.flags =
      (faction.loadFought row baseRep count).flags := by
    rw [load_eq]
    dsimp only
    split_ifs <;> rfl
  unfold FactionState.loadFought at hload
  rw [hload,loadAtWar_flags,loadQuiet_flags,loadShown_flags,loadQuiet_standing]
  rfl

/-- How the flags can have changed since they were the default ones. -/
structure Kept (default flags : FactionFlags) : Prop where
  hidden : flags.hidden = default.hidden
  invisibleForced : flags.invisibleForced = default.invisibleForced
  peaceForced : flags.peaceForced = default.peaceForced
  rival : flags.rival = default.rival
  special : flags.special = default.special
  visible : default.visible = true → flags.visible = true
  shown : flags.visible = true → default.visible = true ∨
    ((default.invisibleForced || default.hidden) && !default.special) = false
  atWar : flags.atWar = true → default.atWar = true ∨ default.peaceForced = false
  inactive : flags.inactive = true → default.inactive = true ∨
    ((default.invisibleForced || default.hidden) = false ∧ flags.visible = true)

/-- What the loader sets on top of the default flags: the flags of a hostile faction, of one that
is inactive by default, and of one that is at war by default and not visible. -/
structure Lossless (default : FactionFlags) (hostile : Bool) (flags : FactionFlags) : Prop where
  inactive : default.inactive = true → flags.inactive = true
  hostile : hostile = true → default.peaceForced = false → flags.atWar = true
  unseen : default.atWar = true → flags.atWar = true ∨ flags.visible = true

section Flags

variable {default flags : FactionFlags} {hostile : Bool}

theorem kept_default (default : FactionFlags) : Kept default default :=
  ⟨rfl,rfl,rfl,rfl,rfl,id,.inl,.inl,.inl⟩

theorem Kept.setVisible (h : Kept default flags) : Kept default { flags with
    visible := flags.visible || !((flags.invisibleForced || flags.hidden) && !flags.special) } := by
  obtain ⟨hhidden,hforced,hpeace,hrival,hspecial,hvisible,hshown,hwar,hinactive⟩ := h
  constructor <;> grind

theorem Kept.setAtWar (h : Kept default flags) (on : Bool) : Kept default { flags with
    atWar := on && (flags.atWar || !flags.peaceForced) } := by
  obtain ⟨hhidden,hforced,hpeace,hrival,hspecial,hvisible,hshown,hwar,hinactive⟩ := h
  constructor <;> grind

theorem Kept.setInactive (h : Kept default flags) (on : Bool) : Kept default { flags with
    inactive := on && (flags.inactive || !(flags.invisibleForced || flags.hidden ||
      !flags.visible)) } := by
  obtain ⟨hhidden,hforced,hpeace,hrival,hspecial,hvisible,hshown,hwar,hinactive⟩ := h
  constructor <;> grind

theorem Kept.loaded (row : FactionFlags) (hostile : Prop) [Decidable hostile] :
    Kept default (default.loaded row hostile) := by
  unfold FactionFlags.loaded
  constructor <;> grind

theorem lossless_loaded (row : FactionFlags) (hostile : Prop) [Decidable hostile] :
    Lossless default (decide hostile) (default.loaded row hostile) := by
  unfold FactionFlags.loaded
  constructor <;> grind

theorem Kept.loaded_eq_iff (h : Kept default flags) (hostile : Prop) [Decidable hostile] :
    default.loaded flags hostile = flags ↔ Lossless default (decide hostile) flags := by
  unfold FactionFlags.loaded
  obtain ⟨hhidden,hforced,hpeace,hrival,hspecial,hvisible,hshown,hwar,hinactive⟩ := h
  constructor
  · intro heq
    rw [← heq]
    constructor <;> grind
  · rintro ⟨hkeep,hhostile,hunseen⟩
    obtain ⟨visible,atWar,hidden,forced,peace,inactive,rival,special⟩ := flags
    dsimp only at *
    rw [FactionFlags.mk.injEq]
    refine ⟨?_,?_,hhidden.symm,hforced.symm,hpeace.symm,?_,hrival.symm,hspecial.symm⟩
    · rw [Bool.eq_iff_iff]
      grind
    · rw [Bool.eq_iff_iff]
      grind
    · rw [Bool.eq_iff_iff]
      grind

end Flags

/-- A state has kept its flags, and is as its row says unless it needs to be saved. -/
structure Recorded (w : World) (rows : Rows) (e : FactionEntry) (faction : FactionState) : Prop where
  kept : Kept (getDefaultStateFlags w e) faction.flags
  row : faction.needSave = false → rows.find? e.ID = some faction.row

def Restorable (w : World) (e : FactionEntry) (faction : FactionState) : Prop :=
  Lossless (getDefaultStateFlags w e) (isHostile w e faction.standing) faction.flags

section States

variable {rows : Rows}

theorem Recorded.of_kept (h : Recorded w rows e faction) {changed : FactionState}
    (hkept : Kept (getDefaultStateFlags w e) changed.flags)
    (hsave : changed = faction ∨ changed.needSave = true) : Recorded w rows e changed := by
  refine ⟨hkept,?_⟩
  intro hsaved
  rcases hsave with rfl | hsave
  · exact h.row hsaved
  · exact absurd (hsave.symm.trans hsaved) (by decide)

theorem Recorded.setVisible (h : Recorded w rows e faction) :
    Recorded w rows e (faction.setVisible 0).1 := by
  apply h.of_kept
  · rw [setVisible_flags]
    exact h.kept.setVisible
  · unfold FactionState.setVisible
    split_ifs
    · exact .inl rfl
    · exact .inl rfl
    · exact .inr rfl

theorem Recorded.setAtWar (h : Recorded w rows e faction) (on : Bool) :
    Recorded w rows e (faction.setAtWar on) := by
  apply h.of_kept
  · rw [setAtWar_flags]
    exact h.kept.setAtWar on
  · unfold FactionState.setAtWar
    split_ifs
    · exact .inl rfl
    · exact .inl rfl
    · exact .inr rfl

theorem Recorded.setInactive (h : Recorded w rows e faction) (on : Bool) :
    Recorded w rows e (faction.setInactive on) := by
  apply h.of_kept
  · rw [setInactive_flags]
    exact h.kept.setInactive on
  · unfold FactionState.setInactive
    split_ifs
    · exact .inl rfl
    · exact .inl rfl
    · exact .inr rfl

theorem Recorded.receive (h : Recorded w rows e faction) (standing : Int) :
    Recorded w rows e (faction.receive standing (getBaseReputation w e)) := by
  have hgiven : Recorded w rows e { faction with
      standing := standing-getBaseReputation w e
      needSave := true } :=
    ⟨h.kept,fun hsaved => absurd hsaved (by simp)⟩
  unfold FactionState.receive
  dsimp only
  split_ifs
  · exact hgiven.setVisible.setAtWar true
  · exact hgiven.setVisible

theorem Lossless.of_le {default flags flags' : FactionFlags} {hostile hostile' : Bool}
    (h : Lossless default hostile flags) (hinactive : flags.inactive = true → flags'.inactive = true)
    (hvisible : flags.visible = true → flags'.visible = true)
    (hwar : flags.atWar = true → flags'.atWar = true)
    (hhostile : hostile' = true → default.peaceForced = false → flags'.atWar = true) :
    Lossless default hostile' flags' :=
  ⟨fun hd => hinactive (h.inactive hd),hhostile,fun hd => (h.unseen hd).imp hwar hvisible⟩

theorem Restorable.setVisible (h : Restorable w e faction) :
    Restorable w e (faction.setVisible 0).1 := by
  unfold Restorable at h ⊢
  rw [setVisible_standing,setVisible_flags]
  exact h.of_le id (fun hv => by simp [hv]) id h.hostile

theorem Restorable.receive (hr : Recorded w rows e faction) (h : Restorable w e faction)
    (standing : Int) : Restorable w e (faction.receive standing (getBaseReputation w e)) := by
  unfold Restorable FactionState.receive
  dsimp only
  have hbase : getBaseReputation w e+(standing-getBaseReputation w e) = standing := by omega
  split_ifs with hhostile
  · rw [(setAtWar_same _ true).standing,setVisible_standing,setAtWar_flags,setVisible_flags]
    refine h.of_le id (fun hv => by simp [hv]) (fun hw => by simp [hw]) ?_
    intro _ hpeace
    simp [hr.kept.peaceForced,hpeace]
  · rw [setVisible_standing,setVisible_flags]
    refine h.of_le id (fun hv => by simp [hv]) id ?_
    intro hrank
    unfold isHostile at hrank
    rw [hbase,decide_eq_true_eq] at hrank
    exact absurd hrank hhostile

theorem restorable_setAtWar_iff (hr : Recorded w rows e faction) (h : Restorable w e faction)
    (on : Bool) : Restorable w e (faction.setAtWar on) ↔ (on = false →
      (isHostile w e faction.standing = true → faction.flags.peaceForced = true) ∧
      ((getDefaultStateFlags w e).atWar = true → faction.flags.visible = true)) := by
  unfold Restorable
  rw [(setAtWar_same faction on).standing,setAtWar_flags]
  have hpeace := hr.kept.peaceForced
  cases on with
  | true =>
    refine iff_of_true (h.of_le id id (fun hw => by simp [hw]) ?_) (by simp)
    intro _ hforced
    simp [hpeace,hforced]
  | false =>
    obtain ⟨hinactive,hhostile,hunseen⟩ := h
    constructor
    · rintro ⟨-,hhostile',hunseen'⟩ -
      grind
    · intro hok
      constructor <;> grind

theorem restorable_setInactive_iff (h : Restorable w e faction) (on : Bool) :
    Restorable w e (faction.setInactive on) ↔
      (on = false → (getDefaultStateFlags w e).inactive = false) := by
  unfold Restorable
  rw [(setInactive_same faction on).standing,setInactive_flags]
  cases on with
  | true => exact iff_of_true (h.of_le (fun hi => by simp [hi]) id id h.hostile) (by simp)
  | false =>
    obtain ⟨hinactive,hhostile,hunseen⟩ := h
    constructor
    · rintro ⟨hinactive',-,-⟩ -
      grind
    · intro hok
      constructor <;> grind

end States

section Loading

variable {R : FactionEntry → FactionState → Prop} {rows : Rows}

theorem loadRow_self (h : Filed w mgr) {row : Nat × Row} (he : e ∈ w.store.entries)
    (hrow : row.1 = e.ID) (hfind : mgr.find? e.reputationListID = some faction) :
    (mgr.loadRow w row).find? e.reputationListID =
      some (faction.load row.2 (getBaseReputation w e) mgr.visibleFactionCount).1 := by
  rcases loadRow_cases h row with ⟨-,hnone⟩ | ⟨e',he',hid,faction',hfind',hset⟩
  · rw [hnone e he hrow] at hfind
    cases hfind
  · obtain rfl : e' = e := List.inj_on_of_nodup_map w.store.nodup_ids he' he (hid.symm.trans hrow)
    obtain rfl := Option.some.inj (hfind.symm.trans hfind')
    exact find?_changed_self he (canHaveReputation_of_find? hfind) hset

theorem Filed.loadRow (h : Filed w mgr) (row : Nat × Row) : Filed w (mgr.loadRow w row) := by
  rcases loadRow_cases h row with ⟨heq,-⟩ | ⟨e,he,-,faction,hfind,hset⟩
  · rwa [heq]
  · obtain ⟨hkey,hid⟩ := entry_of_filed h he hfind
    have hshows := load_shows faction row.2 (getBaseReputation w e) mgr.visibleFactionCount
    exact h.insert he (canHaveReputation_of_find? hfind) (hshows.key.trans hkey)
      (hid.trans hshows.id.symm) hset

theorem loadRows_find? (rows : List (Nat × Row)) (h : Filed w mgr)
    (hnodup : (rows.map Prod.fst).Nodup) (he : e ∈ w.store.entries)
    (hfind : mgr.find? e.reputationListID = some faction) : ∃ count,
      (rows.foldl (ReputationMgr.loadRow w) mgr).find? e.reputationListID =
        some ((OrderedMap.findEntry e.ID rows).elim faction fun row =>
          (faction.load row (getBaseReputation w e) count).1) := by
  induction rows generalizing mgr faction with
  | nil => exact ⟨0,hfind⟩
  | cons row rows ih =>
    obtain ⟨hnew,hnodup⟩ := List.nodup_cons.mp hnodup
    by_cases hrow : row.1 = e.ID
    · obtain ⟨count,hrows⟩ := ih (h.loadRow row) hnodup (loadRow_self h he hrow hfind)
      have hnone : OrderedMap.findEntry e.ID rows = none :=
        OrderedMap.findEntry_eq_none (hrow ▸ hnew)
      refine ⟨mgr.visibleFactionCount,?_⟩
      rw [List.foldl_cons,hrows,hnone]
      unfold OrderedMap.findEntry
      rw [if_pos hrow.symm]
      rfl
    · obtain ⟨count,hrows⟩ := ih (h.loadRow row) hnodup
        ((loadRow_find? h row he hrow).trans hfind)
      refine ⟨count,?_⟩
      rw [List.foldl_cons,hrows]
      conv_rhs => unfold OrderedMap.findEntry
      rw [if_neg (fun heq => hrow heq.symm)]

theorem initializeFactions_find? (es : List FactionEntry) (hsub : ∀ e ∈ es, e ∈ w.store.entries)
    (he : e ∈ w.store.entries) (hlist : e.canHaveReputation = true)
    (hfind : e ∈ es ∨ mgr.find? e.reputationListID = some (initialState w e)) :
    (es.foldl (ReputationMgr.initializeFaction w) mgr).find? e.reputationListID =
      some (initialState w e) := by
  induction es generalizing mgr with
  | nil => exact hfind.resolve_left List.not_mem_nil
  | cons e' es ih =>
    have he' := hsub e' List.mem_cons_self
    apply ih (fun e he => hsub e (List.mem_cons_of_mem _ he))
    by_cases heq : e = e'
    · right
      subst heq
      unfold ReputationMgr.initializeFaction
      rw [if_pos hlist]
      exact find?_changed_self he hlist rfl
    · refine hfind.imp (fun hmem => List.mem_of_ne_of_mem heq hmem) ?_
      intro hfind
      unfold ReputationMgr.initializeFaction
      split_ifs with hlist'
      · exact (find?_changed he' hlist' rfl he : _ = if e = e' then some (initialState w e')
          else mgr.find? e.reputationListID).trans ((if_neg heq).trans hfind)
      · exact hfind

theorem loadFromDB_find? (w : World) (rows : Rows) (he : e ∈ w.store.entries)
    (hlist : e.canHaveReputation = true) : ∃ count,
      (ReputationMgr.loadFromDB w rows).find? e.reputationListID =
        some ((rows.find? e.ID).elim (initialState w e) fun row =>
          ((initialState w e).load row (getBaseReputation w e) count).1) :=
  loadRows_find? rows.entries (counted_initializeAll w).filed rows.nodup_keys he
    (initializeFactions_find? w.store.entries (fun _ he => he) he hlist (.inl he))

end Loading

section Saving

variable {rows : Rows}

theorem saveFaction_find? (rows : Rows) (faction : FactionState) (id : Nat) :
    (ReputationMgr.saveFaction rows faction).find? id =
      if faction.needSave = true ∧ id = faction.ID then some faction.row else rows.find? id := by
  unfold ReputationMgr.saveFaction
  by_cases hsave : faction.needSave = true
  · rw [if_pos hsave,OrderedMap.find?_insert]
    simp [hsave,FactionState.row]
  · rw [if_neg hsave,if_neg (fun h => hsave h.1)]

theorem saveFactions_find?_of_not_mem {factions : List FactionState} {id : Nat} (rows : Rows)
    (h : id ∉ factions.map FactionState.ID) :
    (factions.foldl ReputationMgr.saveFaction rows).find? id = rows.find? id := by
  induction factions generalizing rows with
  | nil => rfl
  | cons head factions ih =>
    rw [List.map_cons,List.mem_cons,not_or] at h
    rw [List.foldl_cons,ih _ h.2,saveFaction_find?,if_neg (fun hsave => h.1 hsave.2)]

theorem saveFactions_find? (factions : List FactionState) (rows : Rows)
    (hnodup : (factions.map FactionState.ID).Nodup) (hmem : faction ∈ factions) :
    (factions.foldl ReputationMgr.saveFaction rows).find? faction.ID =
      if faction.needSave then some faction.row else rows.find? faction.ID := by
  induction factions generalizing rows with
  | nil => exact absurd hmem List.not_mem_nil
  | cons head factions ih =>
    obtain ⟨hnew,hnodup⟩ := List.nodup_cons.mp hnodup
    rw [List.foldl_cons]
    rcases List.mem_cons.mp hmem with rfl | hmem
    · rw [saveFactions_find?_of_not_mem _ hnew,saveFaction_find?]
      simp
    · have hne : faction.ID ≠ head.ID := fun heq => hnew (heq ▸ List.mem_map_of_mem hmem)
      rw [ih _ hnodup hmem,saveFaction_find?,
        if_neg (fun hsave : head.needSave = true ∧ faction.ID = head.ID => hne hsave.2)]

theorem Filed.nodup_ids (h : Filed w mgr) : (mgr.factions.values.map FactionState.ID).Nodup := by
  unfold OrderedMap.values
  rw [List.map_map]
  apply List.pairwise_map.mpr
  apply mgr.factions.sorted.imp_of_mem
  intro a b ha hb hlt heq
  obtain ⟨-,ea,hea,hlista,hida⟩ := h _ _ (OrderedMap.mem_entries.mp ha)
  obtain ⟨-,eb,heb,hlistb,hidb⟩ := h _ _ (OrderedMap.mem_entries.mp hb)
  have hsame : ea = eb := List.inj_on_of_nodup_map w.store.nodup_ids hea heb
    (hida.trans (heq.trans hidb.symm))
  rw [hsame] at hlista
  have hkeys : (a.1 : Int) = b.1 := hlista.symm.trans hlistb
  omega

theorem saveToDB_find? (h : Each w (Recorded w rows) mgr) (he : e ∈ w.store.entries)
    (hfind : mgr.find? e.reputationListID = some faction) :
    (mgr.saveToDB rows).2.find? e.ID = some faction.row := by
  obtain ⟨-,hid⟩ := entry_of_filed h.filed he hfind
  have hrecorded := h.of_find? he hfind
  rw [find?_eq (canHaveReputation_of_find? hfind)] at hfind
  have hmem : faction ∈ mgr.factions.values := OrderedMap.mem_values.mpr ⟨_,hfind⟩
  have hrow := saveFactions_find? mgr.factions.values rows h.filed.nodup_ids hmem
  rw [← hid] at hrow
  unfold ReputationMgr.saveToDB
  rw [hrow]
  split_ifs with hsave
  · rfl
  · exact hrecorded.row (Bool.eq_false_iff.mpr hsave)

end Saving

structure Session where
  mgr : ReputationMgr
  rows : Rows

inductive SessionOp where
  | change (op : Op)
  | saveToDB

namespace Session

def start (w : World) (rows : Rows) : Session := ⟨.loadFromDB w rows,rows⟩

def step (w : World) (s : Session) : SessionOp → Session
  | .change op => { s with mgr := Reputation.step w s.mgr op }
  | .saveToDB =>
    let saved := s.mgr.saveToDB s.rows
    ⟨saved.1,saved.2⟩

def relog (w : World) (s : Session) : ReputationMgr := .loadFromDB w (s.mgr.saveToDB s.rows).2

def Restored (w : World) (s : Session) : Prop :=
  ∀ e ∈ w.store.entries,
    ((s.relog w).find? e.reputationListID).map (fun faction => (faction.standing,faction.flags)) =
      (s.mgr.find? e.reputationListID).map fun faction => (faction.standing,faction.flags)

/-- The factions that have no row and are hostile by their base reputation are at war by
default, unless that is not allowed. -/
def StartsAtWar (w : World) (rows : Rows) : Prop :=
  ∀ e ∈ w.store.entries, e.canHaveReputation = true → rows.find? e.ID = none →
    isHostile w e 0 = true → (getDefaultStateFlags w e).peaceForced = false →
    (getDefaultStateFlags w e).atWar = true

/-- The client ends no war with a faction that is hostile or that is at war by default and not
yet visible, and makes no faction active that is inactive by default. -/
def KeepsDefaults (w : World) (s : Session) : SessionOp → Prop
  | .change (.setAtWar reputationListID false) =>
    ∀ e ∈ w.store.entries, e.reputationListID = reputationListID → ∀ faction,
      s.mgr.find? e.reputationListID = some faction →
      (faction.flags.invisibleForced || faction.flags.hidden) = false →
      (isHostile w e faction.standing = true → faction.flags.peaceForced = true) ∧
      ((getDefaultStateFlags w e).atWar = true → faction.flags.visible = true)
  | .change (.setInactive reputationListID false) =>
    ∀ e ∈ w.store.entries, e.reputationListID = reputationListID →
      (getDefaultStateFlags w e).inactive = false
  | _ => True

end Session

section Loaded

variable {rows : Rows}

theorem needSave_setVisible (h : faction.needSave = true) (count : BitVec 8) :
    (faction.setVisible count).1.needSave = true := by
  unfold FactionState.setVisible
  split_ifs <;> first | exact h | rfl

theorem needSave_setAtWar (h : faction.needSave = true) (on : Bool) :
    (faction.setAtWar on).needSave = true := by
  unfold FactionState.setAtWar
  split_ifs <;> first | exact h | rfl

theorem needSave_setInactive (h : faction.needSave = true) (on : Bool) :
    (faction.setInactive on).needSave = true := by
  unfold FactionState.setInactive
  split_ifs <;> first | exact h | rfl

theorem needSave_loadAtWar (h : faction.needSave = true) (atWar : Bool) (rank : ReputationRank) :
    (faction.loadAtWar atWar rank).needSave = true := by
  unfold FactionState.loadAtWar
  split_ifs <;> simp only [needSave_setAtWar,h]

theorem row_of_load (h : faction.needSave = true) {row : Row} {baseRep : Int} {count : BitVec 8}
    (hsaved : (faction.load row baseRep count).1.needSave = false) :
    (faction.load row baseRep count).1.row = row := by
  have hshown : (faction.loadShown row count).1.needSave = true := by
    unfold FactionState.loadShown
    split_ifs
    · exact needSave_setVisible (by exact h) count
    · exact h
  have hquiet : (faction.loadQuiet row count).needSave = true := by
    unfold FactionState.loadQuiet
    split_ifs
    · exact needSave_setInactive hshown true
    · exact hshown
  have hfought : (faction.loadFought row baseRep count).needSave = true :=
    needSave_loadAtWar hquiet _ _
  unfold FactionState.row
  rw [load_standing]
  rw [load_eq] at hsaved ⊢
  dsimp only at hsaved ⊢
  split_ifs at hsaved ⊢ with hsame
  · obtain ⟨hlow,hhigh⟩ := hsame
    dsimp only
    rw [hlow,← hhigh]
  · rw [hfought] at hsaved
    exact absurd hsaved (by decide)

theorem loaded_spec (w : World) (e : FactionEntry) (row : Row) (count : BitVec 8) :
    Kept (getDefaultStateFlags w e)
        ((initialState w e).load row (getBaseReputation w e) count).1.flags ∧
      (((initialState w e).load row (getBaseReputation w e) count).1.needSave = false →
        ((initialState w e).load row (getBaseReputation w e) count).1.row = row) ∧
      Restorable w e ((initialState w e).load row (getBaseReputation w e) count).1 := by
  refine ⟨?_,row_of_load rfl,?_⟩
  · rw [load_flags]
    exact Kept.loaded row.low _
  · unfold Restorable isHostile
    rw [load_flags,load_standing]
    exact lossless_loaded row.low _

theorem recorded_loadFromDB (w : World) (rows : Rows) :
    Each w (Recorded w rows) (.loadFromDB w rows) := by
  refine ⟨(counted_loadFromDB w rows).filed,?_⟩
  intro e he hlist
  obtain ⟨count,hfind⟩ := loadFromDB_find? w rows he hlist
  refine ⟨_,hfind,?_⟩
  rcases Option.eq_none_or_eq_some (rows.find? e.ID) with hrow | ⟨row,hrow⟩
  · rw [hrow]
    exact ⟨kept_default _,fun hsaved => absurd hsaved (by simp [initialState])⟩
  · rw [hrow]
    obtain ⟨hkept,hrecorded,-⟩ := loaded_spec w e row count
    exact ⟨hkept,fun hsaved => hrow.trans (congrArg some (hrecorded hsaved).symm)⟩

theorem restorable_loadFromDB_iff (w : World) (rows : Rows) :
    Each w (Restorable w) (.loadFromDB w rows) ↔ Session.StartsAtWar w rows := by
  have hstart : ∀ e, Restorable w e (initialState w e) ↔ (isHostile w e 0 = true →
      (getDefaultStateFlags w e).peaceForced = false →
      (getDefaultStateFlags w e).atWar = true) := by
    intro e
    exact ⟨fun h => h.hostile,fun h => ⟨id,h,.inl⟩⟩
  constructor
  · intro h e he hlist hrow
    obtain ⟨count,hfind⟩ := loadFromDB_find? w rows he hlist
    rw [hrow] at hfind
    exact (hstart e).mp (h.of_find? he hfind)
  · intro h
    refine ⟨(counted_loadFromDB w rows).filed,?_⟩
    intro e he hlist
    obtain ⟨count,hfind⟩ := loadFromDB_find? w rows he hlist
    refine ⟨_,hfind,?_⟩
    rcases Option.eq_none_or_eq_some (rows.find? e.ID) with hrow | ⟨row,hrow⟩
    · rw [hrow]
      exact (hstart e).mpr (h e he hlist hrow)
    · rw [hrow]
      exact (loaded_spec w e row count).2.2

end Loaded

namespace Session

variable {s : Session}

theorem each_saveToDB {R R' : FactionEntry → FactionState → Prop} {rows : Rows} (h : Each w R mgr)
    (hrel : ∀ e ∈ w.store.entries, ∀ faction, mgr.find? e.reputationListID = some faction →
      R e faction → R' e { faction with needSave := false }) :
    Each w R' (mgr.saveToDB rows).1 := by
  have hmap : ∀ k, (mgr.saveToDB rows).1.factions.find? k =
      (mgr.factions.find? k).map fun faction => { faction with needSave := false } :=
    fun k => OrderedMap.find?_map _
  refine ⟨?_,?_⟩
  · intro k faction hfind
    rw [hmap] at hfind
    obtain ⟨faction',hfind',rfl⟩ := Option.map_eq_some_iff.mp hfind
    exact h.filed k faction' hfind'
  · intro e he hlist
    obtain ⟨faction,hfind,hstate⟩ := h.each e he hlist
    refine ⟨{ faction with needSave := false },?_,hrel e he faction hfind hstate⟩
    rw [find?_eq hlist] at hfind ⊢
    rw [hmap,hfind]
    rfl

theorem recorded_step (h : Each w (Recorded w s.rows) s.mgr) (op : SessionOp) :
    Each w (Recorded w (s.step w op).rows) (s.step w op).mgr := by
  cases op with
  | change op =>
    dsimp only [step]
    apply step_inv op _ _ _ _ h
    · intro mgr e standing incremental he h
      exact h.setOneFactionReputation he standing incremental
        (fun _ standing hstate => hstate.receive standing)
    · intro mgr e he h
      exact h.setVisible he (fun _ hstate => hstate.setVisible)
    · intro k on _
      exact h.setAtWar k on (fun _ _ _ _ _ _ hstate => hstate.setAtWar on)
    · intro k on _
      exact h.setInactive k on (fun _ _ _ _ _ hstate => hstate.setInactive on)
  | saveToDB =>
    dsimp only [step]
    apply each_saveToDB h
    intro e he faction hfind hstate
    have hrow := saveToDB_find? h he hfind
    exact ⟨hstate.kept,fun _ => hrow⟩

theorem restored_iff (h : Each w (Recorded w s.rows) s.mgr) :
    Restored w s ↔ Each w (Restorable w) s.mgr := by
  have heach : ∀ e ∈ w.store.entries, ∀ faction,
      s.mgr.find? e.reputationListID = some faction →
      (((s.relog w).find? e.reputationListID).map (fun faction => (faction.standing,faction.flags)) =
        some (faction.standing,faction.flags) ↔ Restorable w e faction) := by
    intro e he faction hfind
    obtain ⟨count,hload⟩ := loadFromDB_find? w (s.mgr.saveToDB s.rows).2 he
      (canHaveReputation_of_find? hfind)
    rw [saveToDB_find? h he hfind] at hload
    unfold relog
    rw [hload,Option.map_some,Option.some_inj,Prod.mk.injEq]
    dsimp only [Option.elim]
    rw [load_flags,load_standing]
    have hflags := (h.of_find? he hfind).kept.loaded_eq_iff
      ((reputationToRank (getBaseReputation w e+faction.standing)).level ≤
        ReputationRank.hostile.level)
    exact (and_iff_right rfl).trans hflags
  constructor
  · intro hrestored
    refine ⟨h.filed,?_⟩
    intro e he hlist
    obtain ⟨faction,hfind,-⟩ := h.each e he hlist
    have hback := hrestored e he
    rw [hfind] at hback
    exact ⟨faction,hfind,(heach e he faction hfind).mp hback⟩
  · intro hrestorable e he
    by_cases hlist : e.canHaveReputation = true
    · obtain ⟨faction,hfind,hstate⟩ := hrestorable.each e he hlist
      rw [hfind]
      exact (heach e he faction hfind).mpr hstate
    · have hneg : e.reputationListID < 0 := by simpa [FactionEntry.canHaveReputation] using hlist
      unfold ReputationMgr.find?
      rw [if_pos hneg,if_pos hneg]

theorem restorable_step_iff (h : Each w (Recorded w s.rows) s.mgr)
    (hrestorable : Each w (Restorable w) s.mgr) (op : SessionOp) :
    Each w (Restorable w) (s.step w op).mgr ↔ KeepsDefaults w s op := by
  have hboth : Each w (fun e faction => Recorded w s.rows e faction ∧ Restorable w e faction)
      s.mgr := by
    refine ⟨h.filed,?_⟩
    intro e he hlist
    obtain ⟨faction,hfind,hstate⟩ := h.each e he hlist
    exact ⟨faction,hfind,hstate,hrestorable.of_find? he hfind⟩
  have hright : ∀ mgr, Each w (fun e faction => Recorded w s.rows e faction ∧
      Restorable w e faction) mgr → Each w (Restorable w) mgr := by
    intro mgr h
    refine ⟨h.filed,?_⟩
    intro e he hlist
    obtain ⟨faction,hfind,-,hstate⟩ := h.each e he hlist
    exact ⟨faction,hfind,hstate⟩
  cases op with
  | saveToDB =>
    refine iff_of_true ?_ trivial
    dsimp only [step]
    exact each_saveToDB hrestorable (fun _ _ _ _ hstate => hstate)
  | change op =>
    dsimp only [step]
    constructor
    · intro hafter
      cases op with
      | setAtWar k on =>
        cases on with
        | true => trivial
        | false =>
          intro e he hlist faction hfind hforced
          have hstate := hafter.of_find? he (setAtWar_find? h.filed he hlist hfind hforced false)
          exact (restorable_setAtWar_iff (h.of_find? he hfind) (hrestorable.of_find? he hfind)
            false).mp hstate rfl
      | setInactive k on =>
        cases on with
        | true => trivial
        | false =>
          intro e he hlist
          have hcan : e.canHaveReputation = true := by simp [FactionEntry.canHaveReputation,hlist]
          obtain ⟨faction,hfind,hstate⟩ := hrestorable.each e he hcan
          have hstate' := hafter.of_find? he (setInactive_find? h.filed he hlist hfind false)
          exact (restorable_setInactive_iff hstate false).mp hstate' rfl
      | setReputation faction standing incremental => trivial
      | setOneFactionReputation faction standing incremental => trivial
      | setVisible faction => trivial
    · intro hok
      apply hright
      apply step_inv op _ _ _ _ hboth
      · intro mgr e standing incremental he h
        exact h.setOneFactionReputation he standing incremental
          (fun _ standing hstate => ⟨hstate.1.receive standing,hstate.2.receive hstate.1 standing⟩)
      · intro mgr e he h
        exact h.setVisible he (fun _ hstate => ⟨hstate.1.setVisible,hstate.2.setVisible⟩)
      · rintro k on rfl
        refine hboth.setAtWar k on ?_
        intro e he hlist faction hfind hforced hstate
        refine ⟨hstate.1.setAtWar on,(restorable_setAtWar_iff hstate.1 hstate.2 on).mpr ?_⟩
        rintro rfl
        exact hok e he hlist faction hfind hforced
      · rintro k on rfl
        refine hboth.setInactive k on ?_
        intro e he hlist faction hfind hstate
        refine ⟨hstate.1.setInactive on,(restorable_setInactive_iff hstate.2 on).mpr ?_⟩
        rintro rfl
        exact hok e he hlist

/-- Along a run from what was loaded, the standing and the flags of every faction would come back
at every point, if and only if the factions that are hostile from the start are at war by default
and the client does not end a war or an inactivity that the loader sets again. -/
theorem restored_run_iff (w : World) (rows : Rows) (ops : List SessionOp) :
    (∀ pre post, ops = pre ++ post → Restored w (Run.exec (step w) (start w rows) pre)) ↔
      StartsAtWar w rows ∧ Run.Guarded (step w) (KeepsDefaults w) (start w rows) ops := by
  have hrecorded : Each w (Recorded w (start w rows).rows) (start w rows).mgr :=
    recorded_loadFromDB w rows
  have hrun := fun hrestorable => Run.Guarded.iff_prefixes
    (P := fun s => Each w (Recorded w s.rows) s.mgr ∧ Each w (Restorable w) s.mgr)
    (Q := Restored w) (fun s h => (restored_iff h.1).mpr h.2)
    (fun s op h hback => (restorable_step_iff h.1 h.2 op).mp
      ((restored_iff (recorded_step h.1 op)).mp hback))
    (fun s op h hok => ⟨recorded_step h.1 op,(restorable_step_iff h.1 h.2 op).mpr hok⟩)
    ops ⟨hrecorded,hrestorable⟩
  constructor
  · intro hall
    have hrestorable := (restored_iff hrecorded).mp (hall [] ops rfl)
    exact ⟨(restorable_loadFromDB_iff w rows).mp hrestorable,(hrun hrestorable).mp hall⟩
  · rintro ⟨hstart,hguarded⟩
    exact (hrun ((restorable_loadFromDB_iff w rows).mpr hstart)).mpr hguarded

/-- One faction, at war by default and not visible. -/
def unseenWorld : World where
  store := {
    entries := [⟨1,0,[⟨1,0,0,{ FactionFlags.none with atWar := true }⟩],0,false,0⟩]
    nodup_ids := by decide
    id_pos := by decide
    id_lt := by decide
    list_inj := by decide }
  raceMask := 1
  classMask := 1
  getRepSpilloverTemplate := fun _ => none
  getFactionTeamList := fun _ => none
  gain := id
  shareOut := fun _ => id
  shareIn := fun _ _ => id

/-- The client ends the war, and after the relog it is there again. -/
theorem restored_unseen : ¬ ∀ (w : World) (rows : Rows) (ops : List SessionOp),
    Restored w (Run.exec (step w) (start w rows) ops) := by
  intro h
  have hback := h unseenWorld .empty [.change (.setAtWar 0 false)] _ List.mem_cons_self
  revert hback
  decide

end Session

end TrinityCore.Reputation
