import TrinityCore.Lib.Tally
import TrinityCore.Reputation.ReputationMgr

set_option autoImplicit false

namespace TrinityCore.Reputation

section Counts

variable (w : World) (mgr : ReputationMgr)

def isVisible (e : FactionEntry) : Bool :=
  (mgr.find? e.reputationListID).any fun faction => faction.flags.visible

def hasRank (rank : ReputationRank) (e : FactionEntry) : Bool :=
  e.canHaveReputation && decide ((mgr.getRank w e).level ≥ rank.level)

def visibleFactions : Nat := w.store.entries.countP (isVisible mgr)

def factionsAtLeast (rank : ReputationRank) : Nat := w.store.entries.countP (hasRank w mgr rank)

def Filed : Prop :=
  ∀ k faction, mgr.factions.find? k = some faction → faction.reputationListID = k ∧
    ∃ e ∈ w.store.entries, e.reputationListID = k ∧ e.ID = faction.ID

structure Counted : Prop where
  filed : Filed w mgr
  visible : mgr.visibleFactionCount = BitVec.ofNat 8 (visibleFactions w mgr)
  honored : mgr.honoredFactionCount = BitVec.ofNat 8 (factionsAtLeast w mgr .honored)
  revered : mgr.reveredFactionCount = BitVec.ofNat 8 (factionsAtLeast w mgr .revered)
  exalted : mgr.exaltedFactionCount = BitVec.ofNat 8 (factionsAtLeast w mgr .exalted)

end Counts

variable {w : World} {mgr mgr' : ReputationMgr} {e : FactionEntry} {faction : FactionState}

theorem find?_eq (h : e.canHaveReputation = true) :
    mgr.find? e.reputationListID = mgr.factions.find? e.reputationListID.toNat := by
  have hnonneg : e.reputationListID ≥ 0 := by simpa [FactionEntry.canHaveReputation] using h
  exact if_neg (by omega)

theorem canHaveReputation_of_find? (h : mgr.find? e.reputationListID = some faction) :
    e.canHaveReputation = true := by
  unfold ReputationMgr.find? at h
  split_ifs at h with hneg
  simpa [FactionEntry.canHaveReputation] using hneg

theorem find?_changed (he : e ∈ w.store.entries) (hlist : e.canHaveReputation = true)
    (hset : mgr'.factions = mgr.factions.insert e.reputationListID.toNat faction)
    {e' : FactionEntry} (he' : e' ∈ w.store.entries) : mgr'.find? e'.reputationListID =
      if e' = e then some faction else mgr.find? e'.reputationListID := by
  by_cases heq : e' = e
  · rw [heq,if_pos rfl,find?_eq hlist,hset,OrderedMap.find?_insert,if_pos rfl]
  · rw [if_neg heq]
    unfold ReputationMgr.find?
    split_ifs with hneg
    · rfl
    · rw [hset,OrderedMap.find?_insert,if_neg]
      intro hsame
      have hnonneg : e.reputationListID ≥ 0 := by
        simpa [FactionEntry.canHaveReputation] using hlist
      exact heq (w.store.list_inj e he e' he' hlist (by omega)).symm

theorem find?_changed_self (he : e ∈ w.store.entries) (hlist : e.canHaveReputation = true)
    (hset : mgr'.factions = mgr.factions.insert e.reputationListID.toNat faction) :
    mgr'.find? e.reputationListID = some faction := by
  rw [find?_changed he hlist hset he,if_pos rfl]

theorem Filed.insert (h : Filed w mgr) (he : e ∈ w.store.entries)
    (hlist : e.canHaveReputation = true) (hkey : faction.reputationListID = e.reputationListID.toNat)
    (hid : e.ID = faction.ID)
    (hset : mgr'.factions = mgr.factions.insert e.reputationListID.toNat faction) :
    Filed w mgr' := by
  intro k faction' hfind
  rw [hset,OrderedMap.find?_insert] at hfind
  split_ifs at hfind with heq
  · cases hfind
    have hnonneg : e.reputationListID ≥ 0 := by simpa [FactionEntry.canHaveReputation] using hlist
    exact ⟨hkey.trans heq.symm,e,he,by omega,hid⟩
  · exact h k faction' hfind

theorem nodup_entries (store : FactionStore) : store.entries.Nodup :=
  List.Nodup.of_map FactionEntry.ID store.nodup_ids

theorem visibleFactions_changed (he : e ∈ w.store.entries) (hlist : e.canHaveReputation = true)
    (hset : mgr'.factions = mgr.factions.insert e.reputationListID.toNat faction) :
    visibleFactions w mgr'+(if isVisible mgr e then 1 else 0) =
      visibleFactions w mgr+if faction.flags.visible then 1 else 0 := by
  have hfind := fun {e'} (he' : e' ∈ w.store.entries) => find?_changed he hlist hset he'
  have hnew : isVisible mgr' e = faction.flags.visible := by
    unfold isVisible
    rw [hfind he,if_pos rfl]
    rfl
  unfold visibleFactions
  rw [Tally.countP_exchange (nodup_entries w.store) he,hnew]
  intro e' he' hne
  unfold isVisible
  rw [hfind he',if_neg hne]

theorem getRank_changed (he : e ∈ w.store.entries) (hlist : e.canHaveReputation = true)
    (hset : mgr'.factions = mgr.factions.insert e.reputationListID.toNat faction)
    {e' : FactionEntry} (he' : e' ∈ w.store.entries) : mgr'.getRank w e' =
      if e' = e then reputationToRank (getBaseReputation w e+faction.standing)
      else mgr.getRank w e' := by
  unfold ReputationMgr.getRank ReputationMgr.getReputation
  rw [find?_changed he hlist hset he']
  split_ifs with heq
  · rw [heq]
    rfl
  · rfl

theorem factionsAtLeast_changed (rank : ReputationRank) (he : e ∈ w.store.entries)
    (hlist : e.canHaveReputation = true)
    (hset : mgr'.factions = mgr.factions.insert e.reputationListID.toNat faction) :
    factionsAtLeast w mgr' rank+(if (mgr.getRank w e).level ≥ rank.level then 1 else 0) =
      factionsAtLeast w mgr rank+
        if (reputationToRank (getBaseReputation w e+faction.standing)).level ≥ rank.level then 1
        else 0 := by
  have hold : hasRank w mgr rank e = decide ((mgr.getRank w e).level ≥ rank.level) := by
    unfold hasRank
    rw [hlist,Bool.true_and]
  have hnew : hasRank w mgr' rank e = decide
      ((reputationToRank (getBaseReputation w e+faction.standing)).level ≥ rank.level) := by
    unfold hasRank
    rw [hlist,Bool.true_and,getRank_changed he hlist hset he,if_pos rfl]
  have hothers : ∀ e' ∈ w.store.entries, e' ≠ e → hasRank w mgr' rank e' = hasRank w mgr rank e' := by
    intro e' he' hne
    unfold hasRank
    rw [getRank_changed he hlist hset he',if_neg hne]
  have hexchange := Tally.countP_exchange (nodup_entries w.store) he hothers
  rw [hold,hnew] at hexchange
  simpa [factionsAtLeast] using hexchange

theorem recount_ofNat {counted oldRank newRank : ReputationRank} {n n' : Nat}
    (h : n'+(if oldRank.level ≥ counted.level then 1 else 0) =
      n+if newRank.level ≥ counted.level then 1 else 0) :
    ReputationMgr.recount counted oldRank newRank (BitVec.ofNat 8 n) = BitVec.ofNat 8 n' := by
  unfold ReputationMgr.recount
  apply BitVec.eq_of_toNat_eq
  split_ifs at h ⊢ <;> simp [BitVec.toNat_add,BitVec.toNat_sub] <;> omega

theorem ofNat_add_one {n n' : Nat} (h : n' = n+1) :
    BitVec.ofNat 8 n+1 = BitVec.ofNat 8 n' := by
  rw [h,BitVec.ofNat_add]
  rfl

theorem Counted.changed (h : Counted w mgr) (he : e ∈ w.store.entries)
    (hlist : e.canHaveReputation = true) (hkey : faction.reputationListID = e.reputationListID.toNat)
    (hid : e.ID = faction.ID) {count : BitVec 8} (hcount : count = mgr.visibleFactionCount+
      (if faction.flags.visible = true ∧ isVisible mgr e = false then 1 else 0))
    (hstays : isVisible mgr e = true → faction.flags.visible = true) {oldRank : ReputationRank}
    (hold : ∀ rank : ReputationRank, rank.level ≥ ReputationRank.honored.level →
      (oldRank.level ≥ rank.level ↔ (mgr.getRank w e).level ≥ rank.level)) :
    Counted w ((({ mgr with visibleFactionCount := count } : ReputationMgr).set
      faction).updateRankCounters oldRank
        (reputationToRank (getBaseReputation w e+faction.standing))) := by
  have hset : ((({ mgr with visibleFactionCount := count } : ReputationMgr).set
      faction).updateRankCounters oldRank (reputationToRank
        (getBaseReputation w e+faction.standing))).factions =
      mgr.factions.insert e.reputationListID.toNat faction := by
    rw [← hkey]
    rfl
  have hrank : ∀ rank : ReputationRank, rank.level ≥ ReputationRank.honored.level →
      factionsAtLeast w ((({ mgr with visibleFactionCount := count } : ReputationMgr).set
          faction).updateRankCounters oldRank (reputationToRank
            (getBaseReputation w e+faction.standing))) rank+
          (if oldRank.level ≥ rank.level then 1 else 0) =
        factionsAtLeast w mgr rank+
          if (reputationToRank (getBaseReputation w e+faction.standing)).level ≥ rank.level then 1
          else 0 := by
    intro rank hge
    have hnumber := factionsAtLeast_changed rank he hlist hset
    simp only [hold rank hge]
    exact hnumber
  refine ⟨h.filed.insert he hlist hkey hid hset,?_,?_,?_,?_⟩
  · have hnumber := visibleFactions_changed he hlist hset
    refine hcount.trans ?_
    rw [h.visible]
    cases hvisible : isVisible mgr e with
    | true =>
      rw [hvisible,hstays hvisible,if_pos rfl] at hnumber
      rw [if_neg (by simp),add_zero]
      exact congrArg (BitVec.ofNat 8) (by omega)
    | false =>
      rw [hvisible,if_neg (by simp),add_zero] at hnumber
      by_cases hnew : faction.flags.visible = true
      · rw [if_pos hnew] at hnumber
        rw [if_pos ⟨hnew,rfl⟩]
        exact ofNat_add_one hnumber
      · rw [if_neg hnew,add_zero] at hnumber
        rw [if_neg (fun hc => hnew hc.1),add_zero]
        exact congrArg (BitVec.ofNat 8) hnumber.symm
  · change ReputationMgr.recount _ _ _ mgr.honoredFactionCount = _
    rw [h.honored]
    exact recount_ofNat (hrank .honored (by decide))
  · change ReputationMgr.recount _ _ _ mgr.reveredFactionCount = _
    rw [h.revered]
    exact recount_ofNat (hrank .revered (by decide))
  · change ReputationMgr.recount _ _ _ mgr.exaltedFactionCount = _
    rw [h.exalted]
    exact recount_ofNat (hrank .exalted (by decide))

theorem updateRankCounters_self (mgr : ReputationMgr) (rank : ReputationRank) :
    mgr.updateRankCounters rank rank = mgr := by
  have hsame : ∀ counted count, ReputationMgr.recount counted rank rank count = count := by
    intro counted count
    unfold ReputationMgr.recount
    split_ifs
    · exact sub_add_cancel count 1
    · exact add_zero count
  unfold ReputationMgr.updateRankCounters
  rw [hsame,hsame,hsame]

structure FactionState.SameCounted (faction faction' : FactionState) : Prop where
  key : faction'.reputationListID = faction.reputationListID
  id : faction'.ID = faction.ID
  standing : faction'.standing = faction.standing
  visible : faction'.flags.visible = faction.flags.visible

theorem FactionState.SameCounted.refl (faction : FactionState) : faction.SameCounted faction :=
  ⟨rfl,rfl,rfl,rfl⟩

theorem FactionState.SameCounted.trans {faction₁ faction₂ : FactionState}
    (h : faction.SameCounted faction₁) (h' : faction₁.SameCounted faction₂) :
    faction.SameCounted faction₂ :=
  ⟨h'.key.trans h.key,h'.id.trans h.id,h'.standing.trans h.standing,h'.visible.trans h.visible⟩

structure FactionState.Shows (faction : FactionState) (count : BitVec 8) (faction' : FactionState)
    (count' : BitVec 8) : Prop where
  key : faction'.reputationListID = faction.reputationListID
  id : faction'.ID = faction.ID
  counted : count' = count+
    (if faction'.flags.visible = true ∧ faction.flags.visible = false then 1 else 0)
  stays : faction.flags.visible = true → faction'.flags.visible = true

theorem FactionState.Shows.same {shown changed : FactionState} {count count' : BitVec 8}
    (h : faction.Shows count shown count') (hs : shown.SameCounted changed) :
    faction.Shows count changed count' :=
  ⟨hs.key.trans h.key,hs.id.trans h.id,by rw [hs.visible]; exact h.counted,
    by rw [hs.visible]; exact h.stays⟩

theorem FactionState.SameCounted.shows {changed : FactionState} (hs : faction.SameCounted changed)
    (count : BitVec 8) : faction.Shows count changed count := by
  refine ⟨hs.key,hs.id,?_,hs.visible.trans⟩
  rw [hs.visible]
  cases faction.flags.visible <;> exact (add_zero _).symm

theorem setVisible_shows (faction : FactionState) (count : BitVec 8) :
    faction.Shows count (faction.setVisible count).1 (faction.setVisible count).2 := by
  unfold FactionState.setVisible
  split_ifs <;> constructor <;> simp_all

theorem setVisible_standing (faction : FactionState) (count : BitVec 8) :
    (faction.setVisible count).1.standing = faction.standing := by
  unfold FactionState.setVisible
  split_ifs <;> rfl

theorem setAtWar_same (faction : FactionState) (on : Bool) :
    faction.SameCounted (faction.setAtWar on) := by
  unfold FactionState.setAtWar
  split_ifs <;> exact ⟨rfl,rfl,rfl,rfl⟩

theorem setInactive_same (faction : FactionState) (on : Bool) :
    faction.SameCounted (faction.setInactive on) := by
  unfold FactionState.setInactive
  split_ifs <;> exact ⟨rfl,rfl,rfl,rfl⟩

def FactionState.receive (faction : FactionState) (standing baseRep : Int) : FactionState :=
  let shown := (({ faction with
    standing := standing-baseRep
    needSave := true } : FactionState).setVisible 0).1
  if (reputationToRank standing).level ≤ ReputationRank.hostile.level then shown.setAtWar true
  else shown

theorem setVisible_fst (faction : FactionState) (count count' : BitVec 8) :
    (faction.setVisible count).1 = (faction.setVisible count').1 := by
  unfold FactionState.setVisible
  split_ifs <;> rfl

theorem receive_same (faction : FactionState) (standing baseRep : Int) (count : BitVec 8) :
    (({ faction with
      standing := standing-baseRep
      needSave := true } : FactionState).setVisible count).1.SameCounted
        (faction.receive standing baseRep) := by
  unfold FactionState.receive
  rw [setVisible_fst _ count 0]
  dsimp only
  split_ifs
  · exact setAtWar_same _ true
  · exact .refl _

theorem receive_shows (faction : FactionState) (standing baseRep : Int) (count : BitVec 8) :
    faction.Shows count (faction.receive standing baseRep) (({ faction with
      standing := standing-baseRep
      needSave := true } : FactionState).setVisible count).2 := by
  obtain ⟨hkey,hid,hcount,hstays⟩ :=
    (setVisible_shows _ count).same (receive_same faction standing baseRep count)
  exact ⟨hkey,hid,hcount,hstays⟩

theorem receive_standing (faction : FactionState) (standing baseRep : Int) :
    baseRep+(faction.receive standing baseRep).standing = standing := by
  rw [(receive_same faction standing baseRep 0).standing,setVisible_standing]
  exact add_sub_cancel baseRep standing

theorem setOneFactionReputation_eq (hfind : mgr.find? e.reputationListID = some faction)
    (standing : Int) (incremental : Bool) : ∃ standing' ∈ Set.Icc reputationBottom reputationCap,
      mgr.setOneFactionReputation w e standing incremental =
        ((({ mgr with visibleFactionCount := (({ faction with
            standing := standing'-getBaseReputation w e
            needSave := true } : FactionState).setVisible mgr.visibleFactionCount).2 } :
          ReputationMgr).set (faction.receive standing' (getBaseReputation w e))).updateRankCounters
            (reputationToRank (faction.standing+getBaseReputation w e))
            (reputationToRank standing'),true) := by
  unfold ReputationMgr.setOneFactionReputation
  rw [hfind]
  dsimp only
  generalize hclamp : (if (if incremental = true then
    w.gain standing+(faction.standing+getBaseReputation w e) else standing) > reputationCap
    then reputationCap else _) = standing'
  refine ⟨standing',?_,?_⟩
  · rw [← hclamp,Set.mem_Icc]
    unfold reputationCap reputationBottom
    split_ifs <;> omega
  · unfold FactionState.receive
    rw [setVisible_fst _ 0 mgr.visibleFactionCount]

theorem entry_of_filed (h : Filed w mgr) (he : e ∈ w.store.entries)
    (hfind : mgr.find? e.reputationListID = some faction) :
    faction.reputationListID = e.reputationListID.toNat ∧ e.ID = faction.ID := by
  have hlist := canHaveReputation_of_find? hfind
  have hnonneg : e.reputationListID ≥ 0 := by simpa [FactionEntry.canHaveReputation] using hlist
  rw [find?_eq hlist] at hfind
  obtain ⟨hkey,e',he',hlist',hid⟩ := h _ _ hfind
  have heq : e = e' := w.store.list_inj e he e' he' hlist (by omega)
  exact ⟨hkey,heq ▸ hid⟩

theorem isVisible_eq (hfind : mgr.find? e.reputationListID = some faction) :
    isVisible mgr e = faction.flags.visible := by
  unfold isVisible
  rw [hfind]
  rfl

theorem getRank_eq (hfind : mgr.find? e.reputationListID = some faction) :
    mgr.getRank w e = reputationToRank (getBaseReputation w e+faction.standing) := by
  unfold ReputationMgr.getRank ReputationMgr.getReputation
  rw [hfind]
  rfl

theorem Counted.shown (h : Counted w mgr) (he : e ∈ w.store.entries)
    (hfind : mgr.find? e.reputationListID = some faction) {changed : FactionState}
    {count : BitVec 8} (hs : faction.Shows mgr.visibleFactionCount changed count)
    {oldRank : ReputationRank}
    (hold : reputationToRank (getBaseReputation w e+faction.standing) = oldRank) :
    Counted w ((({ mgr with visibleFactionCount := count } : ReputationMgr).set
      changed).updateRankCounters oldRank
        (reputationToRank (getBaseReputation w e+changed.standing))) := by
  obtain ⟨hkey,hid⟩ := entry_of_filed h.filed he hfind
  refine h.changed he (canHaveReputation_of_find? hfind) (hs.key.trans hkey) (hid.trans hs.id.symm)
    ?_ ?_ ?_
  · rw [isVisible_eq hfind]
    exact hs.counted
  · rw [isVisible_eq hfind]
    exact hs.stays
  · intro rank _
    rw [getRank_eq hfind,hold]

theorem Counted.shown_same (h : Counted w mgr) (he : e ∈ w.store.entries)
    (hfind : mgr.find? e.reputationListID = some faction) {changed : FactionState}
    {count : BitVec 8} (hs : faction.Shows mgr.visibleFactionCount changed count)
    (hstanding : changed.standing = faction.standing) :
    Counted w (({ mgr with visibleFactionCount := count } : ReputationMgr).set changed) := by
  rw [← updateRankCounters_self (ReputationMgr.set _ changed)
    (reputationToRank (getBaseReputation w e+changed.standing))]
  exact h.shown he hfind hs (by rw [hstanding])

theorem Counted.setOneFactionReputation (h : Counted w mgr) (he : e ∈ w.store.entries)
    (standing : Int) (incremental : Bool) :
    Counted w (mgr.setOneFactionReputation w e standing incremental).1 := by
  cases hfind : mgr.find? e.reputationListID with
  | none =>
    unfold ReputationMgr.setOneFactionReputation
    rw [hfind]
    exact h
  | some faction =>
    obtain ⟨standing',-,heq⟩ := setOneFactionReputation_eq (w := w) hfind standing incremental
    rw [heq]
    have hshown := h.shown he hfind
      (receive_shows faction standing' (getBaseReputation w e) mgr.visibleFactionCount)
      (by rw [add_comm])
    rwa [receive_standing] at hshown

theorem Counted.setVisible (h : Counted w mgr) (he : e ∈ w.store.entries) :
    Counted w (mgr.setVisible e) := by
  unfold ReputationMgr.setVisible
  split
  · exact h
  · rename_i faction hfind
    exact h.shown_same he hfind (setVisible_shows faction _) (setVisible_standing faction _)

theorem Filed.entry (h : Filed w mgr) {k : Nat} (hfind : mgr.factions.find? k = some faction) :
    ∃ e ∈ w.store.entries, e.canHaveReputation = true ∧ e.reputationListID = k ∧
      mgr.find? e.reputationListID = some faction := by
  obtain ⟨-,e,he,hlist,-⟩ := h k faction hfind
  have hcan : e.canHaveReputation = true := by simp [FactionEntry.canHaveReputation,hlist]
  refine ⟨e,he,hcan,hlist,?_⟩
  rw [find?_eq hcan,hlist,Int.toNat_natCast,hfind]

theorem Counted.set (h : Counted w mgr) {k : Nat} (hfind : mgr.factions.find? k = some faction)
    {changed : FactionState} (hs : faction.SameCounted changed) : Counted w (mgr.set changed) := by
  obtain ⟨e,he,-,-,hfind'⟩ := h.filed.entry hfind
  exact h.shown_same he hfind' (hs.shows _) hs.standing

theorem Counted.step (h : Counted w mgr) (op : Op) : Counted w (step w mgr op) := by
  apply step_inv op _ _ _ _ h
  · intro mgr e standing incremental he h
    exact h.setOneFactionReputation he standing incremental
  · intro mgr e he h
    exact h.setVisible he
  · intro id on _
    unfold ReputationMgr.setAtWar
    split
    · exact h
    · rename_i faction hfind
      split_ifs
      · exact h
      · exact h.set hfind (setAtWar_same faction on)
  · intro id on _
    unfold ReputationMgr.setInactive
    split
    · exact h
    · rename_i faction hfind
      exact h.set hfind (setInactive_same faction on)

theorem getRank_none (w : World) (hfind : mgr.find? e.reputationListID = none)
    {rank : ReputationRank} (hge : rank.level ≥ ReputationRank.honored.level) :
    ¬ (mgr.getRank w e).level ≥ rank.level := by
  have hrank : mgr.getRank w e = reputationToRank 0 := by
    unfold ReputationMgr.getRank ReputationMgr.getReputation
    rw [hfind]
    rfl
  have hlevel : (reputationToRank 0).level < ReputationRank.honored.level := by decide
  rw [hrank]
  omega

theorem factionsAtLeast_empty (w : World) (rank : ReputationRank)
    (hge : rank.level ≥ ReputationRank.honored.level) : factionsAtLeast w .empty rank = 0 := by
  apply List.countP_eq_zero.mpr
  intro e _
  have hnone : ReputationMgr.empty.find? e.reputationListID = none := by
    unfold ReputationMgr.find?
    split_ifs <;> simp [ReputationMgr.empty]
  have hrank := getRank_none w hnone hge
  simp [hasRank,hrank]

theorem counted_empty (w : World) : Counted w .empty where
  filed := by
    intro k faction hfind
    simp [ReputationMgr.empty] at hfind
  visible := by
    have hnone : visibleFactions w .empty = 0 := by
      apply List.countP_eq_zero.mpr
      intro e _
      unfold isVisible ReputationMgr.find?
      split_ifs <;> simp [ReputationMgr.empty]
    rw [hnone]
    rfl
  honored := congrArg (BitVec.ofNat 8) (factionsAtLeast_empty w .honored (by decide)).symm
  revered := congrArg (BitVec.ofNat 8) (factionsAtLeast_empty w .revered (by decide)).symm
  exalted := congrArg (BitVec.ofNat 8) (factionsAtLeast_empty w .exalted (by decide)).symm

theorem Counted.initializeFactions (h : Counted w mgr) {es : List FactionEntry}
    (hsub : ∀ e ∈ es, e ∈ w.store.entries) (hnodup : es.Nodup)
    (hnone : ∀ e ∈ es, mgr.find? e.reputationListID = none) :
    Counted w (es.foldl (ReputationMgr.initializeFaction w) mgr) := by
  induction es generalizing mgr with
  | nil => exact h
  | cons e es ih =>
    obtain ⟨hnew,hnodup⟩ := List.nodup_cons.mp hnodup
    have he := hsub e List.mem_cons_self
    have hfind := hnone e List.mem_cons_self
    have hstep : Counted w (mgr.initializeFaction w e) ∧ ∀ e' ∈ es,
        (mgr.initializeFaction w e).find? e'.reputationListID = none := by
      unfold ReputationMgr.initializeFaction
      split_ifs with hlist
      · refine ⟨?_,?_⟩
        · have hbase : getBaseRank w e = reputationToRank (getBaseReputation w e+0) := by
            rw [add_zero]
            rfl
          have hinvisible : isVisible mgr e = false := by
            unfold isVisible
            rw [hfind]
            rfl
          rw [hbase]
          refine h.changed he hlist rfl rfl ?_ ?_ ?_
          · rw [hinvisible]
            simp
          · rw [hinvisible]
            simp
          · intro rank hge
            have hrank := getRank_none w hfind hge
            have hhostile : ReputationRank.hostile.level < ReputationRank.honored.level := by decide
            omega
        · intro e' he'
          rw [find?_changed he hlist rfl (hsub e' (List.mem_cons_of_mem _ he')),if_neg]
          · exact hnone e' (List.mem_cons_of_mem _ he')
          · exact fun heq => hnew (heq ▸ he')
      · exact ⟨h,fun e' he' => hnone e' (List.mem_cons_of_mem _ he')⟩
    exact ih hstep.1 (fun e' he' => hsub e' (List.mem_cons_of_mem _ he')) hnodup hstep.2

theorem counted_initializeAll (w : World) : Counted w (ReputationMgr.initializeAll w) := by
  apply (counted_empty w).initializeFactions (fun _ he => he) (nodup_entries w.store)
  intro e _
  unfold ReputationMgr.find?
  split_ifs <;> simp [ReputationMgr.empty]

theorem loadAtWar_same (faction : FactionState) (atWar : Bool) (rank : ReputationRank) :
    faction.SameCounted (faction.loadAtWar atWar rank) := by
  unfold FactionState.loadAtWar
  dsimp only
  have hfirst : faction.SameCounted (if atWar = true then faction.setAtWar true
      else if faction.flags.visible = true then faction.setAtWar false else faction) := by
    split_ifs
    · exact setAtWar_same faction true
    · exact setAtWar_same faction false
    · exact .refl faction
  split_ifs at hfirst ⊢ <;> first | exact hfirst | exact hfirst.trans (setAtWar_same _ true)

/-- The first two flags that are set when a row is loaded. -/
def FactionState.loadShown (faction : FactionState) (row : Row) (count : BitVec 8) :
    FactionState × BitVec 8 :=
  if row.low.visible then ({ faction with standing := row.standing } : FactionState).setVisible count
  else ({ faction with standing := row.standing },count)

def FactionState.loadQuiet (faction : FactionState) (row : Row) (count : BitVec 8) : FactionState :=
  if row.low.inactive then (faction.loadShown row count).1.setInactive true
  else (faction.loadShown row count).1

def FactionState.loadFought (faction : FactionState) (row : Row) (baseRep : Int) (count : BitVec 8) :
    FactionState :=
  (faction.loadQuiet row count).loadAtWar row.low.atWar
    (reputationToRank (baseRep+(faction.loadQuiet row count).standing))

theorem load_eq (faction : FactionState) (row : Row) (baseRep : Int) (count : BitVec 8) :
    faction.load row baseRep count =
      (if (faction.loadFought row baseRep count).flags = row.low ∧ row.high = 0 then
        { faction.loadFought row baseRep count with needSave := false }
      else faction.loadFought row baseRep count,(faction.loadShown row count).2) := rfl

theorem loadShown_shows (faction : FactionState) (row : Row) (count : BitVec 8) :
    faction.Shows count (faction.loadShown row count).1 (faction.loadShown row count).2 := by
  unfold FactionState.loadShown
  split_ifs
  · obtain ⟨hkey,hid,hcount,hstays⟩ :=
      setVisible_shows ({ faction with standing := row.standing } : FactionState) count
    exact ⟨hkey,hid,hcount,hstays⟩
  · exact ⟨rfl,rfl,((FactionState.SameCounted.refl faction).shows count).counted,id⟩

theorem loadQuiet_same (faction : FactionState) (row : Row) (count : BitVec 8) :
    (faction.loadShown row count).1.SameCounted (faction.loadQuiet row count) := by
  unfold FactionState.loadQuiet
  split_ifs
  · exact setInactive_same _ true
  · exact .refl _

theorem loadQuiet_standing (faction : FactionState) (row : Row) (count : BitVec 8) :
    (faction.loadQuiet row count).standing = row.standing := by
  rw [(loadQuiet_same faction row count).standing]
  unfold FactionState.loadShown
  split_ifs
  · exact setVisible_standing _ count
  · rfl

theorem load_same (faction : FactionState) (row : Row) (baseRep : Int) (count : BitVec 8) :
    (faction.loadQuiet row count).SameCounted (faction.load row baseRep count).1 := by
  have hfought : (faction.loadQuiet row count).SameCounted (faction.loadFought row baseRep count) :=
    loadAtWar_same ..
  rw [load_eq]
  dsimp only
  split_ifs
  · exact ⟨hfought.key,hfought.id,hfought.standing,hfought.visible⟩
  · exact hfought

theorem load_standing (faction : FactionState) (row : Row) (baseRep : Int) (count : BitVec 8) :
    (faction.load row baseRep count).1.standing = row.standing :=
  (load_same faction row baseRep count).standing.trans (loadQuiet_standing faction row count)

theorem load_shows (faction : FactionState) (row : Row) (baseRep : Int) (count : BitVec 8) :
    faction.Shows count (faction.load row baseRep count).1 (faction.load row baseRep count).2 :=
  (loadShown_shows faction row count).same
    ((loadQuiet_same faction row count).trans (load_same faction row baseRep count))

theorem Counted.loadRow (h : Counted w mgr) {row : Nat × Row}
    (hstart : ∀ e faction, w.store.lookupEntry row.1 = some e →
      mgr.find? e.reputationListID = some faction → faction.standing = 0) :
    Counted w (mgr.loadRow w row) := by
  unfold ReputationMgr.loadRow
  split
  · exact h
  · rename_i e he
    split
    · exact h
    · rename_i faction hfind
      dsimp only
      rw [← load_standing faction row.2 (getBaseReputation w e) mgr.visibleFactionCount]
      exact h.shown (lookupEntry_mem he) hfind (load_shows faction row.2 _ _)
        (by rw [hstart e faction he hfind,add_zero])

theorem lookupEntry_self (he : e ∈ w.store.entries) : w.store.lookupEntry e.ID = some e := by
  cases hfind : w.store.lookupEntry e.ID with
  | none =>
    unfold FactionStore.lookupEntry at hfind
    exact absurd (List.find?_eq_none.mp hfind e he) (by simp)
  | some e' =>
    exact congrArg some (List.inj_on_of_nodup_map w.store.nodup_ids (lookupEntry_mem hfind) he
      (lookupEntry_id hfind))

theorem loadRow_cases (h : Filed w mgr) (row : Nat × Row) :
    (mgr.loadRow w row = mgr ∧ ∀ e ∈ w.store.entries, row.1 = e.ID →
        mgr.find? e.reputationListID = none) ∨
      ∃ e ∈ w.store.entries, row.1 = e.ID ∧ ∃ faction,
        mgr.find? e.reputationListID = some faction ∧ (mgr.loadRow w row).factions =
          mgr.factions.insert e.reputationListID.toNat
            (faction.load row.2 (getBaseReputation w e) mgr.visibleFactionCount).1 := by
  unfold ReputationMgr.loadRow
  split
  · rename_i hnone
    refine .inl ⟨rfl,fun e he hid => ?_⟩
    rw [hid,lookupEntry_self he] at hnone
    cases hnone
  · rename_i e he
    have hmem := lookupEntry_mem he
    split
    · rename_i hnone
      refine .inl ⟨rfl,fun e' he' hid => ?_⟩
      rw [hid,lookupEntry_self he'] at he
      exact Option.some.inj he ▸ hnone
    · rename_i faction hfind
      refine .inr ⟨e,hmem,(lookupEntry_id he).symm,faction,hfind,?_⟩
      rw [← (entry_of_filed h hmem hfind).1,← (load_shows faction row.2 _ _).key]
      rfl

theorem loadRow_find? (h : Filed w mgr) (row : Nat × Row) (he : e ∈ w.store.entries)
    (hne : row.1 ≠ e.ID) :
    (mgr.loadRow w row).find? e.reputationListID = mgr.find? e.reputationListID := by
  rcases loadRow_cases h row with ⟨heq,-⟩ | ⟨e',he',hid,faction,hfind,hset⟩
  · rw [heq]
  · rw [find?_changed he' (canHaveReputation_of_find? hfind) hset he,if_neg]
    exact fun heq => hne (heq ▸ hid)

theorem standing_initializeAll (w : World) : ∀ k faction,
    (ReputationMgr.initializeAll w).factions.find? k = some faction → faction.standing = 0 := by
  refine @Run.exec_inv _ _ (ReputationMgr.initializeFaction w)
    (fun mgr => ∀ k faction, mgr.factions.find? k = some faction → faction.standing = 0)
    ?_ .empty w.store.entries ?_
  · intro mgr e h k faction hfind
    unfold ReputationMgr.initializeFaction at hfind
    split_ifs at hfind
    · change OrderedMap.find? (OrderedMap.insert mgr.factions _ _) k = some faction at hfind
      rw [OrderedMap.find?_insert] at hfind
      split_ifs at hfind
      · cases hfind
        rfl
      · exact h k faction hfind
    · exact h k faction hfind
  · intro k faction hfind
    simp [ReputationMgr.empty] at hfind

/-- The factions of the rows that are left have not changed since `Initialize`. -/
theorem Counted.loadRows (rows : List (Nat × Row)) (h : Counted w mgr)
    (hnodup : (rows.map Prod.fst).Nodup)
    (hstart : ∀ e ∈ w.store.entries, e.ID ∈ rows.map Prod.fst → ∀ faction,
      mgr.find? e.reputationListID = some faction → faction.standing = 0) :
    Counted w (rows.foldl (ReputationMgr.loadRow w) mgr) := by
  induction rows generalizing mgr with
  | nil => exact h
  | cons row rows ih =>
    obtain ⟨hnew,hnodup⟩ := List.nodup_cons.mp hnodup
    have hrow : ∀ e faction, w.store.lookupEntry row.1 = some e →
        mgr.find? e.reputationListID = some faction → faction.standing = 0 := by
      intro e faction he hfind
      exact hstart e (lookupEntry_mem he) (by simp [lookupEntry_id he]) faction hfind
    apply ih (h.loadRow hrow) hnodup
    intro e he hmem faction hfind
    have hne : row.1 ≠ e.ID := fun heq => hnew (heq ▸ hmem)
    rw [loadRow_find? h.filed row he hne] at hfind
    exact hstart e he (List.mem_cons_of_mem _ hmem) faction hfind

theorem counted_loadFromDB (w : World) (rows : Rows) : Counted w (.loadFromDB w rows) := by
  apply (counted_initializeAll w).loadRows rows.entries rows.nodup_keys
  intro e _ _ faction hfind
  rw [find?_eq (canHaveReputation_of_find? hfind)] at hfind
  exact standing_initializeAll w _ faction hfind

theorem counted_run (w : World) (rows : Rows) (ops : List Op) :
    Counted w (Run.exec (step w) (.loadFromDB w rows) ops) :=
  Run.exec_inv (P := Counted w) (fun _ op h => h.step op) _ ops (counted_loadFromDB w rows)

theorem setOneFactionReputation_range (h : Filed w mgr) (he : e ∈ w.store.entries)
    (standing : Int) (incremental : Bool)
    (hset : (mgr.setOneFactionReputation w e standing incremental).2 = true) : ∃ faction,
      (mgr.setOneFactionReputation w e standing incremental).1.find? e.reputationListID =
        some faction ∧
      getBaseReputation w e+faction.standing ∈ Set.Icc reputationBottom reputationCap := by
  cases hfind : mgr.find? e.reputationListID with
  | none =>
    unfold ReputationMgr.setOneFactionReputation at hset
    rw [hfind] at hset
    cases hset
  | some faction =>
    obtain ⟨standing',hrange,heq⟩ := setOneFactionReputation_eq (w := w) hfind standing incremental
    refine ⟨faction.receive standing' (getBaseReputation w e),?_,?_⟩
    · rw [heq]
      apply find?_changed_self he (canHaveReputation_of_find? hfind)
      rw [← (entry_of_filed h he hfind).1,← (receive_shows faction standing' _ 0).key]
      rfl
    · rwa [receive_standing]

theorem counted_le (w : World) (mgr : ReputationMgr) (rank : ReputationRank) :
    visibleFactions w mgr ≤ w.store.entries.countP FactionEntry.canHaveReputation ∧
      factionsAtLeast w mgr rank ≤ w.store.entries.countP FactionEntry.canHaveReputation := by
  constructor
  · apply List.countP_mono_left
    intro e _ hvisible
    unfold isVisible at hvisible
    cases hfind : mgr.find? e.reputationListID with
    | none => simp [hfind] at hvisible
    | some faction => exact canHaveReputation_of_find? hfind
  · apply List.countP_mono_left
    intro e _ hrank
    unfold hasRank at hrank
    exact (Bool.and_eq_true_iff.mp hrank).1

/-- After the load and all that happens then, each counter is its number modulo 256, and with
fewer than 256 listed factions it is the number. A standing that is set is in the range. -/
theorem reputation_counters (w : World) (rows : Rows) (ops : List Op) :
    let mgr := Run.exec (step w) (.loadFromDB w rows) ops
    (mgr.visibleFactionCount.toNat = visibleFactions w mgr%256 ∧
      mgr.honoredFactionCount.toNat = factionsAtLeast w mgr .honored%256 ∧
      mgr.reveredFactionCount.toNat = factionsAtLeast w mgr .revered%256 ∧
      mgr.exaltedFactionCount.toNat = factionsAtLeast w mgr .exalted%256) ∧
    (w.store.entries.countP FactionEntry.canHaveReputation < 256 →
      mgr.visibleFactionCount.toNat = visibleFactions w mgr ∧
      mgr.honoredFactionCount.toNat = factionsAtLeast w mgr .honored ∧
      mgr.reveredFactionCount.toNat = factionsAtLeast w mgr .revered ∧
      mgr.exaltedFactionCount.toNat = factionsAtLeast w mgr .exalted) ∧
    ∀ e ∈ w.store.entries, ∀ standing incremental,
      (mgr.setOneFactionReputation w e standing incremental).2 = true → ∃ faction,
        (mgr.setOneFactionReputation w e standing incremental).1.find? e.reputationListID =
          some faction ∧
        getBaseReputation w e+faction.standing ∈ Set.Icc reputationBottom reputationCap := by
  intro mgr
  have h : Counted w mgr := counted_run w rows ops
  have hmod : mgr.visibleFactionCount.toNat = visibleFactions w mgr%256 ∧
      mgr.honoredFactionCount.toNat = factionsAtLeast w mgr .honored%256 ∧
      mgr.reveredFactionCount.toNat = factionsAtLeast w mgr .revered%256 ∧
      mgr.exaltedFactionCount.toNat = factionsAtLeast w mgr .exalted%256 := by
    rw [h.visible,h.honored,h.revered,h.exalted]
    exact ⟨BitVec.toNat_ofNat _ _,BitVec.toNat_ofNat _ _,BitVec.toNat_ofNat _ _,
      BitVec.toNat_ofNat _ _⟩
  refine ⟨hmod,?_,?_⟩
  · intro hfew
    have hhonored := counted_le w mgr .honored
    have hrevered := counted_le w mgr .revered
    have hexalted := counted_le w mgr .exalted
    omega
  · intro e he standing incremental hset
    exact setOneFactionReputation_range h.filed he standing incremental hset

def crowdedStore (n : Nat) (h : n < 2^16) : FactionStore where
  entries := (List.range n).map fun i =>
    ⟨i+1,i,[⟨1,0,0,{ FactionFlags.none with visible := true }⟩],0,false,0⟩
  nodup_ids := by
    rw [List.map_map]
    exact List.nodup_range.map fun _ _ heq => Nat.succ.inj heq
  id_pos := by
    intro e he
    obtain ⟨i,_,rfl⟩ := List.mem_map.mp he
    exact Nat.succ_pos i
  id_lt := by
    intro e he
    obtain ⟨i,hi,rfl⟩ := List.mem_map.mp he
    exact lt_of_le_of_lt (List.mem_range.mp hi) h
  list_inj := by
    intro e he e' he' _ heq
    obtain ⟨i,_,rfl⟩ := List.mem_map.mp he
    obtain ⟨j,_,rfl⟩ := List.mem_map.mp he'
    obtain rfl : i = j := Int.ofNat.inj heq
    rfl

def crowdedWorld (n : Nat) (h : n < 2^16) : World where
  store := crowdedStore n h
  raceMask := 1
  classMask := 1
  getRepSpilloverTemplate := fun _ => none
  getFactionTeamList := fun _ => none
  gain := id
  shareOut := fun _ => id
  shareIn := fun _ _ => id

theorem reputation_counters_three :
    (crowdedWorld 3 (by decide)).store.entries.countP FactionEntry.canHaveReputation < 256 ∧
      (Run.exec (step (crowdedWorld 3 (by decide)))
        (.loadFromDB (crowdedWorld 3 (by decide)) .empty)
        [.setReputation 1 9000 false]).honoredFactionCount.toNat =
      factionsAtLeast (crowdedWorld 3 (by decide)) (Run.exec (step (crowdedWorld 3 (by decide)))
        (.loadFromDB (crowdedWorld 3 (by decide)) .empty) [.setReputation 1 9000 false])
        .honored :=
  ⟨by decide,((reputation_counters (crowdedWorld 3 (by decide)) .empty
    [.setReputation 1 9000 false]).2.1 (by decide)).2.1⟩

theorem reputation_counters_wrap : ¬ ∀ (w : World) (rows : Rows) (ops : List Op),
    (Run.exec (step w) (.loadFromDB w rows) ops).visibleFactionCount.toNat =
      visibleFactions w (Run.exec (step w) (.loadFromDB w rows) ops) := by
  intro h
  have hcrowded := h (crowdedWorld 256 (by decide)) .empty []
  rw [Run.exec_nil] at hcrowded
  revert hcrowded
  decide +kernel

end TrinityCore.Reputation
