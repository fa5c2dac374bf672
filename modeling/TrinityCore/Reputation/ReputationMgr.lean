import TrinityCore.Lib.OrderedMap
import TrinityCore.Lib.Run

set_option autoImplicit false

namespace TrinityCore.Reputation

inductive ReputationRank where
  | hated
  | hostile
  | unfriendly
  | neutral
  | friendly
  | honored
  | revered
  | exalted
  deriving DecidableEq

def ReputationRank.level : ReputationRank → Nat
  | .hated => 0
  | .hostile => 1
  | .unfriendly => 2
  | .neutral => 3
  | .friendly => 4
  | .honored => 5
  | .revered => 6
  | .exalted => 7

def reputationCap : Int := 42999
def reputationBottom : Int := -42000

def pointsInRank : List (ReputationRank × Int) :=
  [(.exalted,1000),(.revered,21000),(.honored,12000),(.friendly,6000),(.neutral,3000),
    (.unfriendly,3000),(.hostile,3000),(.hated,36000)]

def rankBelow (standing : Int) : Int → List (ReputationRank × Int) → ReputationRank
  | _, [] => .hated
  | limit, (rank,points) :: ranks =>
    if standing ≥ limit-points then rank else rankBelow standing (limit-points) ranks

def reputationToRank (standing : Int) : ReputationRank :=
  rankBelow standing (reputationCap+1) pointsInRank

structure FactionFlags where
  visible : Bool
  atWar : Bool
  hidden : Bool
  invisibleForced : Bool
  peaceForced : Bool
  inactive : Bool
  rival : Bool
  special : Bool
  deriving DecidableEq

def FactionFlags.none : FactionFlags := ⟨false,false,false,false,false,false,false,false⟩

/-- What a faction has for some of the races and classes: the entries with one index of the
arrays `BaseRepRaceMask`, `BaseRepClassMask`, `BaseRepValue` and `ReputationFlags`. -/
structure BaseRep where
  raceMask : BitVec 32
  classMask : BitVec 32
  value : Int
  flags : FactionFlags
  deriving DecidableEq

structure FactionEntry where
  ID : Nat
  reputationListID : Int
  baseRep : List BaseRep
  team : Nat
  /-- Whether `spilloverRateOut` is not zero. -/
  spillsOut : Bool
  spilloverMaxRankIn : Nat
  deriving DecidableEq

def FactionEntry.canHaveReputation (e : FactionEntry) : Bool := decide (e.reputationListID ≥ 0)

/-- The factions. The loop of `Initialize` begins with the id 1, which is the first one that a
faction has, and the tables of the characters can hold every id. -/
structure FactionStore where
  entries : List FactionEntry
  nodup_ids : (entries.map FactionEntry.ID).Nodup
  id_pos : ∀ e ∈ entries, 0 < e.ID
  id_lt : ∀ e ∈ entries, e.ID < 2^16
  list_inj : ∀ e ∈ entries, ∀ e' ∈ entries, e.canHaveReputation = true →
    e.reputationListID = e'.reputationListID → e = e'

def FactionStore.lookupEntry (store : FactionStore) (id : Nat) : Option FactionEntry :=
  store.entries.find? fun e => e.ID == id

structure RepSpillover where
  faction : Nat
  factionRank : Nat
  /-- The standing times the rate. -/
  share : Int → Int

/-- The factions, the race and the class of the player, and the rates. -/
structure World where
  store : FactionStore
  raceMask : BitVec 32
  classMask : BitVec 32
  getRepSpilloverTemplate : Nat → Option (List RepSpillover)
  getFactionTeamList : Nat → Option (List Nat)
  /-- The standing times `RATE_REPUTATION_GAIN`. -/
  gain : Int → Int
  /-- The standing times `spilloverRateOut` of a faction. -/
  shareOut : FactionEntry → Int → Int
  /-- The standing times `spilloverRateOut` of the first faction, if it has to be, and times
  `spilloverRateIn` of the second. -/
  shareIn : Option FactionEntry → FactionEntry → Int → Int

structure FactionState where
  ID : Nat
  reputationListID : Nat
  standing : Int
  flags : FactionFlags
  needSave : Bool
  deriving DecidableEq

structure ReputationMgr where
  factions : OrderedMap Nat FactionState
  visibleFactionCount : BitVec 8
  honoredFactionCount : BitVec 8
  reveredFactionCount : BitVec 8
  exaltedFactionCount : BitVec 8

def BaseRep.appliesTo (base : BaseRep) (raceMask classMask : BitVec 32) : Bool :=
  (base.raceMask &&& raceMask != 0 || (base.raceMask == 0 && base.classMask != 0)) &&
    (base.classMask &&& classMask != 0 || base.classMask == 0)

section Base

variable (w : World) (e : FactionEntry)

def getBaseReputation : Int :=
  (e.baseRep.find? fun base => base.appliesTo w.raceMask w.classMask).elim 0 BaseRep.value

def getDefaultStateFlags : FactionFlags :=
  (e.baseRep.find? fun base => base.appliesTo w.raceMask w.classMask).elim .none BaseRep.flags

def getBaseRank : ReputationRank := reputationToRank (getBaseReputation w e)

end Base

namespace FactionState

variable (faction : FactionState)

/-- Hidden factions can't be made visible, but special ones can. -/
def staysInvisible : Bool :=
  (faction.flags.invisibleForced || faction.flags.hidden) && !faction.flags.special

def setVisible (count : BitVec 8) : FactionState × BitVec 8 :=
  if faction.staysInvisible then (faction,count)
  else if faction.flags.visible then (faction,count)
  else ({ faction with
    flags := { faction.flags with visible := true }
    needSave := true },count+1)

def setAtWar (atWar : Bool) : FactionState :=
  if atWar && faction.flags.peaceForced then faction
  else if faction.flags.atWar = atWar then faction
  else { faction with
    flags := { faction.flags with atWar := atWar }
    needSave := true }

def setInactive (inactive : Bool) : FactionState :=
  if inactive && (faction.flags.invisibleForced || faction.flags.hidden ||
      !faction.flags.visible) then faction
  else if faction.flags.inactive = inactive then faction
  else { faction with
    flags := { faction.flags with inactive := inactive }
    needSave := true }

end FactionState

namespace ReputationMgr

variable (w : World) (mgr : ReputationMgr)

def empty : ReputationMgr := ⟨.empty,0,0,0,0⟩

def find? (reputationListID : Int) : Option FactionState :=
  if reputationListID < 0 then none else mgr.factions.find? reputationListID.toNat

def getReputation (e : FactionEntry) : Int :=
  (mgr.find? e.reputationListID).elim 0 fun faction => getBaseReputation w e+faction.standing

def getRank (e : FactionEntry) : ReputationRank := reputationToRank (mgr.getReputation w e)

def set (faction : FactionState) : ReputationMgr :=
  { mgr with factions := mgr.factions.insert faction.reputationListID faction }

def recount (counted : ReputationRank) (oldRank newRank : ReputationRank) (count : BitVec 8) :
    BitVec 8 :=
  (if oldRank.level ≥ counted.level then count-1 else count)+
    (if newRank.level ≥ counted.level then 1 else 0)

def updateRankCounters (oldRank newRank : ReputationRank) : ReputationMgr :=
  { mgr with
    exaltedFactionCount := recount .exalted oldRank newRank mgr.exaltedFactionCount
    reveredFactionCount := recount .revered oldRank newRank mgr.reveredFactionCount
    honoredFactionCount := recount .honored oldRank newRank mgr.honoredFactionCount }

def initializeFaction (e : FactionEntry) : ReputationMgr :=
  if e.canHaveReputation then
    let faction : FactionState :=
      ⟨e.ID,e.reputationListID.toNat,0,getDefaultStateFlags w e,true⟩
    (({ mgr with
      visibleFactionCount :=
        mgr.visibleFactionCount+(if faction.flags.visible then 1 else 0) } :
      ReputationMgr).updateRankCounters .hostile (getBaseRank w e)).set faction
  else mgr

def initializeAll : ReputationMgr := w.store.entries.foldl (initializeFaction w) empty

def setOneFactionReputation (e : FactionEntry) (standing : Int) (incremental : Bool) :
    ReputationMgr × Bool :=
  match mgr.find? e.reputationListID with
  | none => (mgr,false)
  | some faction =>
    let baseRep := getBaseReputation w e
    let standing := if incremental then w.gain standing+(faction.standing+baseRep) else standing
    let standing :=
      if standing > reputationCap then reputationCap
      else if standing < reputationBottom then reputationBottom
      else standing
    let oldRank := reputationToRank (faction.standing+baseRep)
    let newRank := reputationToRank standing
    let faction := { faction with
      standing := standing-baseRep
      needSave := true }
    let visible := faction.setVisible mgr.visibleFactionCount
    let faction :=
      if newRank.level ≤ ReputationRank.hostile.level then visible.1.setAtWar true else visible.1
    ((({ mgr with visibleFactionCount := visible.2 } : ReputationMgr).set
      faction).updateRankCounters oldRank newRank,true)

def spillTemplate (standing : Int) (incremental : Bool) (mgr : ReputationMgr)
    (spill : RepSpillover) : ReputationMgr :=
  match w.store.lookupEntry spill.faction with
  | none => mgr
  | some e =>
    if (mgr.getRank w e).level ≤ spill.factionRank then
      (mgr.setOneFactionReputation w e (spill.share standing) incremental).1
    else mgr

def spillIn (origin : FactionEntry) (out : Option FactionEntry) (standing : Int)
    (incremental : Bool) (mgr : ReputationMgr) (faction : Nat) : ReputationMgr :=
  match w.store.lookupEntry faction with
  | none => mgr
  | some e =>
    if e.ID = origin.ID ∨ (mgr.getRank w e).level > e.spilloverMaxRankIn then mgr
    else if w.shareIn out e standing ≠ 0 ∨ incremental = false then
      (mgr.setOneFactionReputation w e (w.shareIn out e standing) incremental).1
    else mgr

/-- The spillover of a faction without template. -/
def spillOver (e : FactionEntry) (standing : Int) (incremental : Bool) : ReputationMgr :=
  match w.getFactionTeamList e.ID with
  | some list => list.foldl (spillIn w e none standing incremental) mgr
  | none =>
    if e.team ≠ 0 ∧ e.spillsOut = true then
      match w.store.lookupEntry e.team with
      | none => mgr
      | some parent =>
        if (mgr.find? parent.reputationListID).any fun state => state.flags.special then
          (mgr.setOneFactionReputation w parent (w.shareOut e standing) incremental).1
        else
          ((w.getFactionTeamList e.team).getD []).foldl (spillIn w e (some e) standing incremental)
            mgr
    else mgr

def setReputation (e : FactionEntry) (standing : Int) (incremental : Bool) : ReputationMgr :=
  let mgr := match w.getRepSpilloverTemplate e.ID with
    | some spills => spills.foldl (spillTemplate w standing incremental) mgr
    | none => mgr.spillOver w e standing incremental
  (mgr.setOneFactionReputation w e standing incremental).1

def setVisible (e : FactionEntry) : ReputationMgr :=
  match mgr.find? e.reputationListID with
  | none => mgr
  | some faction =>
    let visible := faction.setVisible mgr.visibleFactionCount
    ({ mgr with visibleFactionCount := visible.2 } : ReputationMgr).set visible.1

/-- `SetVisible` for a faction that is met: factions of the opposing team are not shown. -/
def setVisibleTemplate (faction : Nat) : ReputationMgr :=
  match w.store.lookupEntry faction with
  | none => mgr
  | some e =>
    if (e.baseRep[1]?).any fun base =>
        base.raceMask &&& w.raceMask != 0 && decide (base.value = reputationBottom) then mgr
    else mgr.setVisible e

def setAtWar (reputationListID : Nat) (on : Bool) : ReputationMgr :=
  match mgr.factions.find? reputationListID with
  | none => mgr
  | some faction =>
    if faction.flags.invisibleForced || faction.flags.hidden then mgr
    else mgr.set (faction.setAtWar on)

def setInactive (reputationListID : Nat) (on : Bool) : ReputationMgr :=
  match mgr.factions.find? reputationListID with
  | none => mgr
  | some faction => mgr.set (faction.setInactive on)

end ReputationMgr

/-- A row of `character_reputation`: the flags are a low and a high byte. -/
structure Row where
  standing : Int
  low : FactionFlags
  high : BitVec 8
  deriving DecidableEq

abbrev Rows : Type := OrderedMap Nat Row

def FactionState.loadAtWar (faction : FactionState) (atWar : Bool) (rank : ReputationRank) :
    FactionState :=
  let faction :=
    if atWar then faction.setAtWar true
    else if faction.flags.visible then faction.setAtWar false
    else faction
  if rank.level ≤ ReputationRank.hostile.level then faction.setAtWar true else faction

/-- What a row makes of the state of a faction: the flags are set one after the other. -/
def FactionState.load (faction : FactionState) (row : Row) (baseRep : Int) (count : BitVec 8) :
    FactionState × BitVec 8 :=
  let faction := { faction with standing := row.standing }
  let visible := if row.low.visible then faction.setVisible count else (faction,count)
  let faction := if row.low.inactive then visible.1.setInactive true else visible.1
  let faction := faction.loadAtWar row.low.atWar (reputationToRank (baseRep+faction.standing))
  (if faction.flags = row.low ∧ row.high = 0 then { faction with needSave := false } else faction,
    visible.2)

namespace ReputationMgr

variable (w : World) (mgr : ReputationMgr)

def loadRow (mgr : ReputationMgr) (row : Nat × Row) : ReputationMgr :=
  match w.store.lookupEntry row.1 with
  | none => mgr
  | some e =>
    match mgr.find? e.reputationListID with
    | none => mgr
    | some faction =>
      let baseRep := getBaseReputation w e
      let loaded := faction.load row.2 baseRep mgr.visibleFactionCount
      (({ mgr with visibleFactionCount := loaded.2 } : ReputationMgr).set
        loaded.1).updateRankCounters (reputationToRank baseRep)
          (reputationToRank (baseRep+row.2.standing))

def loadFromDB (rows : Rows) : ReputationMgr := rows.entries.foldl (loadRow w) (initializeAll w)

def saveFaction (rows : Rows) (faction : FactionState) : Rows :=
  if faction.needSave then rows.insert faction.ID ⟨faction.standing,faction.flags,0⟩ else rows

def saveToDB (rows : Rows) : ReputationMgr × Rows :=
  ({ mgr with factions := mgr.factions.map fun _ faction => { faction with needSave := false } },
    mgr.factions.values.foldl saveFaction rows)

end ReputationMgr

inductive Op where
  | setReputation (faction : Nat) (standing : Int) (incremental : Bool)
  | setOneFactionReputation (faction : Nat) (standing : Int) (incremental : Bool)
  | setVisible (faction : Nat)
  | setAtWar (reputationListID : Nat) (on : Bool)
  | setInactive (reputationListID : Nat) (on : Bool)

def step (w : World) (mgr : ReputationMgr) : Op → ReputationMgr
  | .setReputation faction standing incremental =>
    (w.store.lookupEntry faction).elim mgr fun e => mgr.setReputation w e standing incremental
  | .setOneFactionReputation faction standing incremental =>
    (w.store.lookupEntry faction).elim mgr fun e =>
      (mgr.setOneFactionReputation w e standing incremental).1
  | .setVisible faction => mgr.setVisibleTemplate w faction
  | .setAtWar reputationListID on => mgr.setAtWar reputationListID on
  | .setInactive reputationListID on => mgr.setInactive reputationListID on

variable {w : World} {mgr : ReputationMgr} {e : FactionEntry}

theorem lookupEntry_mem {id : Nat} (h : w.store.lookupEntry id = some e) : e ∈ w.store.entries :=
  List.mem_of_find?_eq_some h

theorem lookupEntry_id {id : Nat} (h : w.store.lookupEntry id = some e) : e.ID = id := by
  unfold FactionStore.lookupEntry at h
  simpa using List.find?_some h

theorem setReputation_inv {P : ReputationMgr → Prop}
    (hone : ∀ mgr e standing incremental, e ∈ w.store.entries → P mgr →
      P (mgr.setOneFactionReputation w e standing incremental).1)
    (he : e ∈ w.store.entries) (standing : Int) (incremental : Bool) (h : P mgr) :
    P (mgr.setReputation w e standing incremental) := by
  have htemplate : ∀ mgr spill, P mgr →
      P (ReputationMgr.spillTemplate w standing incremental mgr spill) := by
    intro mgr spill h
    unfold ReputationMgr.spillTemplate
    split
    · exact h
    · rename_i e he
      split_ifs
      · exact hone mgr e _ _ (lookupEntry_mem he) h
      · exact h
  have hin : ∀ origin out mgr faction, P mgr →
      P (ReputationMgr.spillIn w origin out standing incremental mgr faction) := by
    intro origin out mgr faction h
    unfold ReputationMgr.spillIn
    split
    · exact h
    · rename_i e he
      split_ifs
      · exact h
      · exact hone mgr e _ _ (lookupEntry_mem he) h
      · exact h
  have hover : P (mgr.spillOver w e standing incremental) := by
    unfold ReputationMgr.spillOver
    split
    · exact Run.exec_inv (hin e none) _ _ h
    · split_ifs
      · split
        · exact h
        · rename_i parent hparent
          split
          · exact hone mgr parent _ _ (lookupEntry_mem hparent) h
          · exact Run.exec_inv (hin e (some e)) _ _ h
      · exact h
  unfold ReputationMgr.setReputation
  apply hone _ e _ _ he
  split
  · exact Run.exec_inv htemplate _ _ h
  · exact hover

theorem step_inv {P : ReputationMgr → Prop} (op : Op)
    (hone : ∀ mgr e standing incremental, e ∈ w.store.entries → P mgr →
      P (mgr.setOneFactionReputation w e standing incremental).1)
    (hvisible : ∀ mgr e, e ∈ w.store.entries → P mgr → P (mgr.setVisible e))
    (hwar : ∀ id on, op = .setAtWar id on → P (mgr.setAtWar id on))
    (hinactive : ∀ id on, op = .setInactive id on → P (mgr.setInactive id on))
    (h : P mgr) : P (step w mgr op) := by
  cases op with
  | setReputation faction standing incremental =>
    dsimp only [step]
    cases he : w.store.lookupEntry faction with
    | none => exact h
    | some e => exact setReputation_inv hone (lookupEntry_mem he) standing incremental h
  | setOneFactionReputation faction standing incremental =>
    dsimp only [step]
    cases he : w.store.lookupEntry faction with
    | none => exact h
    | some e => exact hone mgr e _ _ (lookupEntry_mem he) h
  | setVisible faction =>
    dsimp only [step]
    unfold ReputationMgr.setVisibleTemplate
    split
    · exact h
    · rename_i e he
      split
      · exact h
      · exact hvisible mgr e (lookupEntry_mem he) h
  | setAtWar id on => exact hwar id on rfl
  | setInactive id on => exact hinactive id on rfl

end TrinityCore.Reputation
