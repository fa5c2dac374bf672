import TrinityCore.Lib.Acyclic
import TrinityCore.Spells.SpellGroups

set_option autoImplicit false

/-!
The groups of a spell are those that lead to it. Two spells that share groups are asked for the
rule of one of them if and only if some group that they share does not lead into a cycle of such
groups.
-/

namespace TrinityCore.SpellMgr

open Relation

variable {S : SpellStore} {rows : List SpellGroupRow} {m : SpellGroupSpellMap} {sg : SpellGroups}
  {a b g h s : UInt32} {x : Int32}

theorem mem_getSpellGroupSpellMapBounds :
    x ∈ getSpellGroupSpellMapBounds m g ↔ (g,x) ∈ m := by
  unfold getSpellGroupSpellMapBounds
  rw [List.mem_map]
  constructor
  · rintro ⟨entry,hentry,rfl⟩
    obtain ⟨hmem,hkey⟩ := List.mem_filter.mp hentry
    rw [← of_decide_eq_true hkey]
    exact hmem
  · intro hmem
    exact ⟨_,List.mem_filter.mpr ⟨hmem,decide_eq_true rfl⟩,rfl⟩

theorem link_iff : Visit.Link (groupEntries m) g h ↔ ∃ x, (g,x) ∈ m ∧ x < 0 ∧ abs x = h := by
  unfold Visit.Link groupEntries
  rw [List.mem_map]
  refine exists_congr fun x => ?_
  rw [mem_getSpellGroupSpellMapBounds]
  refine and_congr_right fun _ => ?_
  unfold groupEntry
  by_cases hneg : x < 0
  · simp [hneg]
  · simp [hneg]

section Loading

theorem mem_readGroups (h : (g,x) ∈ loadedRows S rows) : g ∈ readGroups rows := by
  obtain ⟨row,hrow,heq⟩ := List.mem_map.mp (List.mem_filter.mp h).1
  refine List.mem_toFinset.mpr (List.mem_map.mpr ⟨row,hrow,?_⟩)
  exact congrArg Prod.fst heq

theorem link_mem_readGroups (h : Visit.Link (groupEntries (loadedRows S rows)) g a) :
    a ∈ readGroups rows := by
  obtain ⟨x,hx,hneg,rfl⟩ := link_iff.mp h
  have hkept := (List.mem_filter.mp hx).2
  unfold keptRow at hkept
  rw [if_pos hneg] at hkept
  exact of_decide_eq_true hkept

theorem leads_mem_readGroups (h : Visit.Leads (groupEntries (loadedRows S rows)) g s) :
    g ∈ readGroups rows := by
  have hentry : ∀ g entry, entry ∈ groupEntries (loadedRows S rows) g → g ∈ readGroups rows := by
    intro g entry hentry
    obtain ⟨x,hx,-⟩ := List.mem_map.mp hentry
    exact mem_readGroups (mem_getSpellGroupSpellMapBounds.mp hx)
  obtain ⟨h,hpath,hleaf⟩ := h
  rcases ReflTransGen.cases_head hpath with rfl | ⟨c,hlink,-⟩
  · exact hentry _ _ hleaf
  · exact hentry _ _ hlink

theorem exists_getSet (hg : g ∈ readGroups rows) : ∃ spells,
    getSetOfSpellsInSpellGroup (loadedRows S rows) ((readGroups rows).card+1) g = some spells ∧
      ∀ s, s ∈ spells ↔ Visit.Leads (groupEntries (loadedRows S rows)) g s := by
  have hcard : (readGroups rows \ (∅ : Finset UInt32)).card < (readGroups rows).card+1 := by
    rw [Finset.sdiff_empty]
    exact Nat.lt_succ_self _
  obtain ⟨s',hvisit,hwalked⟩ := Visit.exists_visit (s := ⟨∅,∅⟩)
    (fun _ _ hlink => link_mem_readGroups hlink) hg hcard
  refine ⟨s'.found,?_,hwalked.mem_found_iff⟩
  unfold getSetOfSpellsInSpellGroup
  rw [hvisit]
  rfl

theorem exists_collected {groups : List UInt32} (hgroups : ∀ g ∈ groups, g ∈ readGroups rows)
    (before : SpellSpellGroupMap) : ∃ after,
      groups.foldlM (fun spellGroups groupId =>
        (getSetOfSpellsInSpellGroup (loadedRows S rows) ((readGroups rows).card+1) groupId).map
          fun spells => spellGroups ++ (OrderedSet.elems spells).map fun spellId =>
            (spellId,groupId)) before = some after ∧
      ∀ s g, (s,g) ∈ after ↔ (s,g) ∈ before ∨
        g ∈ groups ∧ Visit.Leads (groupEntries (loadedRows S rows)) g s := by
  induction groups generalizing before with
  | nil => exact ⟨before,rfl,by simp⟩
  | cons group groups ih =>
    obtain ⟨spells,hget,hspells⟩ := exists_getSet (S := S) (hgroups group List.mem_cons_self)
    obtain ⟨after,hfold,hafter⟩ := ih (fun g hg => hgroups g (List.mem_cons_of_mem group hg))
      (before ++ (OrderedSet.elems spells).map fun spellId => (spellId,group))
    refine ⟨after,?_,fun s g => ?_⟩
    · rw [List.foldlM_cons,hget]
      exact hfold
    · have hadded : (s,g) ∈ (OrderedSet.elems spells).map (fun spellId => (spellId,group)) ↔
          g = group ∧ Visit.Leads (groupEntries (loadedRows S rows)) g s := by
        rw [List.mem_map]
        constructor
        · rintro ⟨spellId,hmem,heq⟩
          obtain ⟨rfl,rfl⟩ := Prod.mk.inj heq
          exact ⟨rfl,(hspells spellId).mp (OrderedSet.mem_elems.mp hmem)⟩
        · rintro ⟨rfl,hleads⟩
          exact ⟨s,OrderedSet.mem_elems.mpr ((hspells s).mpr hleads),rfl⟩
      rw [hafter,List.mem_append,hadded,List.mem_cons,or_assoc,← or_and_right]

theorem exists_loadSpellGroups (S : SpellStore) (rows : List SpellGroupRow) :
    ∃ sg, loadSpellGroups S rows = some sg ∧ sg.spellGroupSpell = loadedRows S rows ∧
      ∀ s g, (s,g) ∈ sg.spellSpellGroup ↔ Visit.Leads (groupEntries (loadedRows S rows)) g s := by
  have hgroups : ∀ g ∈ OrderedSet.elems (readGroups rows), g ∈ readGroups rows :=
    fun g hg => OrderedSet.mem_elems.mp hg
  obtain ⟨after,hfold,hafter⟩ := exists_collected (S := S) hgroups []
  refine ⟨⟨loadedRows S rows,after⟩,?_,rfl,fun s g => ?_⟩
  · unfold loadSpellGroups
    dsimp only
    rw [hfold]
    rfl
  · rw [hafter s g,OrderedSet.mem_elems]
    constructor
    · rintro (hnil | ⟨-,hleads⟩)
      · exact absurd hnil List.not_mem_nil
      · exact hleads
    · intro hleads
      exact .inr ⟨leads_mem_readGroups hleads,hleads⟩

end Loading

section Sharing

def SpellStore.groupSpell (S : SpellStore) (spellInfo : UInt32) : UInt32 :=
  S.getFirstSpellInChain (S.getFirstRankSpell spellInfo)

def Shared (S : SpellStore) (rows : List SpellGroupRow) (a b g : UInt32) : Prop :=
  Visit.Leads (groupEntries (loadedRows S rows)) g (S.groupSpell a) ∧
    Visit.Leads (groupEntries (loadedRows S rows)) g (S.groupSpell b)

def SharedLink (S : SpellStore) (rows : List SpellGroupRow) (a b g h : UInt32) : Prop :=
  Visit.Link (groupEntries (loadedRows S rows)) g h ∧ Shared S rows a b h

/-- From a group the links between shared groups lead to one that they lead back to. -/
def LeadsIntoCycle (S : SpellStore) (rows : List SpellGroupRow) (a b g : UInt32) : Prop :=
  ∃ h, ReflTransGen (SharedLink S rows a b) g h ∧ TransGen (SharedLink S rows a b) h h

structure Collected (S : SpellStore) (rows : List SpellGroupRow) (sg : SpellGroups) : Prop where
  rows_eq : sg.spellGroupSpell = loadedRows S rows
  mem_iff : ∀ s g, (s,g) ∈ sg.spellSpellGroup ↔
    Visit.Leads (groupEntries (loadedRows S rows)) g s

theorem Collected.mem_bounds (hsg : Collected S rows sg) :
    g ∈ getSpellSpellGroupMapBounds S sg s ↔
      Visit.Leads (groupEntries (loadedRows S rows)) g (S.getFirstSpellInChain s) := by
  unfold getSpellSpellGroupMapBounds
  rw [← hsg.mem_iff,List.mem_map]
  constructor
  · rintro ⟨entry,hentry,rfl⟩
    obtain ⟨hmem,hkey⟩ := List.mem_filter.mp hentry
    rw [← of_decide_eq_true hkey]
    exact hmem
  · intro hmem
    exact ⟨_,List.mem_filter.mpr ⟨hmem,decide_eq_true rfl⟩,rfl⟩

theorem Collected.isMember_iff (hsg : Collected S rows sg) :
    isSpellMemberOfSpellGroup S sg s g = true ↔
      Visit.Leads (groupEntries (loadedRows S rows)) g (S.getFirstSpellInChain s) := by
  unfold isSpellMemberOfSpellGroup
  rw [List.any_eq_true,← hsg.mem_bounds]
  constructor
  · rintro ⟨group,hgroup,heq⟩
    rw [← of_decide_eq_true heq]
    exact hgroup
  · intro hmem
    exact ⟨g,hmem,decide_eq_true rfl⟩

/-- The rule of a shared group is asked for unless the group is linked to a shared one. -/
theorem Collected.mem_consulted_iff (hsg : Collected S rows sg) :
    g ∈ consultedGroups S sg (S.getFirstRankSpell a) (S.getFirstRankSpell b) ↔
      Shared S rows a b g ∧ ∀ h, ¬ SharedLink S rows a b g h := by
  have hnested : (getSpellGroupSpellMapBounds sg.spellGroupSpell g).any (fun entry =>
      decide (entry < 0) &&
        (isSpellMemberOfSpellGroup S sg (S.getFirstRankSpell a) (abs entry) &&
          isSpellMemberOfSpellGroup S sg (S.getFirstRankSpell b) (abs entry))) = true ↔
      ∃ h, SharedLink S rows a b g h := by
    rw [List.any_eq_true,hsg.rows_eq]
    constructor
    · rintro ⟨x,hx,hall⟩
      rw [Bool.and_eq_true,Bool.and_eq_true,hsg.isMember_iff,hsg.isMember_iff] at hall
      obtain ⟨hneg,hshared⟩ := hall
      exact ⟨abs x,link_iff.mpr ⟨x,mem_getSpellGroupSpellMapBounds.mp hx,of_decide_eq_true hneg,rfl⟩,
        hshared⟩
    · rintro ⟨h,hlink,hshared⟩
      obtain ⟨x,hx,hneg,rfl⟩ := link_iff.mp hlink
      refine ⟨x,mem_getSpellGroupSpellMapBounds.mpr hx,?_⟩
      rw [Bool.and_eq_true,Bool.and_eq_true,hsg.isMember_iff,hsg.isMember_iff]
      exact ⟨decide_eq_true hneg,hshared⟩
  unfold consultedGroups
  rw [List.mem_toFinset,List.mem_filter,hsg.mem_bounds,Bool.and_eq_true,hsg.isMember_iff,
    ← and_assoc,Bool.not_eq_true',Bool.eq_false_iff,ne_eq,hnested,not_exists]
  rfl

theorem Collected.consulted_comm (hsg : Collected S rows sg) (a b : UInt32) :
    consultedGroups S sg (S.getFirstRankSpell a) (S.getFirstRankSpell b) =
      consultedGroups S sg (S.getFirstRankSpell b) (S.getFirstRankSpell a) := by
  have hshared : ∀ g, Shared S rows a b g ↔ Shared S rows b a g := fun g => and_comm
  ext g
  rw [hsg.mem_consulted_iff,hsg.mem_consulted_iff,hshared]
  unfold SharedLink
  simp only [hshared]

theorem Collected.check_comm (hsg : Collected S rows sg) (stack : SpellGroupStackMap)
    (a b : UInt32) : checkSpellGroupStackRules S sg stack a b =
      checkSpellGroupStackRules S sg stack b a := by
  unfold checkSpellGroupStackRules
  dsimp only
  rw [hsg.consulted_comm a b]
  simp only [eq_comm]

theorem finite_sharedLink (S : SpellStore) (rows : List SpellGroupRow) (a b : UInt32) :
    {h | ∃ g, SharedLink S rows a b g h}.Finite :=
  (readGroups rows).finite_toSet.subset fun _ ⟨_,hlink,_⟩ => link_mem_readGroups hlink

/-- Where a group does not lead into a cycle, it leads to one that is linked to none. -/
theorem exists_last (hshared : Shared S rows a b g) (hcycle : ¬ LeadsIntoCycle S rows a b g) :
    ∃ h, Shared S rows a b h ∧ ∀ c, ¬ SharedLink S rows a b h c := by
  let r := fun h c => ReflTransGen (SharedLink S rows a b) g h ∧ SharedLink S rows a b h c
  have hfin : {c | ∃ h, r h c}.Finite :=
    (finite_sharedLink S rows a b).subset fun c ⟨h,_,hlink⟩ => ⟨h,hlink⟩
  have hacyclic : ∀ h, ¬ TransGen r h h := by
    intro h hloop
    obtain ⟨c,⟨hpath,-⟩,-⟩ := TransGen.head'_iff.mp hloop
    exact hcycle ⟨h,hpath,Acyclic.cycle_mono (fun _ _ hr _ => hr.2) hloop .refl⟩
  obtain ⟨last,⟨hpath,hlast⟩,hmin⟩ := (Acyclic.wellFounded hfin hacyclic).has_min
    {h | ReflTransGen (SharedLink S rows a b) g h ∧ Shared S rows a b h} ⟨g,.refl,hshared⟩
  refine ⟨last,hlast,fun c hlink => ?_⟩
  exact hmin c ⟨hpath.tail hlink,hlink.2⟩ ⟨hpath,hlink⟩

theorem Collected.consulted_nonempty_iff (hsg : Collected S rows sg) :
    consultedGroups S sg (S.getFirstRankSpell a) (S.getFirstRankSpell b) ≠ ∅ ↔
      ∃ g, Shared S rows a b g ∧ ¬ LeadsIntoCycle S rows a b g := by
  rw [← Finset.nonempty_iff_ne_empty]
  constructor
  · rintro ⟨g,hg⟩
    obtain ⟨hshared,hlast⟩ := hsg.mem_consulted_iff.mp hg
    refine ⟨g,hshared,?_⟩
    rintro ⟨h,hpath,hloop⟩
    rcases ReflTransGen.cases_head hpath with rfl | ⟨c,hlink,-⟩
    · obtain ⟨c,hlink,-⟩ := TransGen.head'_iff.mp hloop
      exact hlast c hlink
    · exact hlast c hlink
  · rintro ⟨g,hshared,hcycle⟩
    obtain ⟨h,hlast⟩ := exists_last hshared hcycle
    exact ⟨h,hsg.mem_consulted_iff.mpr hlast⟩

end Sharing

/-- The groups of a first rank are those that lead to it, the order of two spells makes no
difference, and two spells that share a group are asked for the rule of one. -/
def GroupsExact (S : SpellStore) (rows : List SpellGroupRow) (stackRows : List StackRuleRow)
    (a b : UInt32) (sg : SpellGroups) : Prop :=
  (∀ s g, S.getFirstSpellInChain s = s → (isSpellMemberOfSpellGroup S sg s g = true ↔
    Visit.Leads (groupEntries (loadedRows S rows)) g s)) ∧
  checkSpellGroupStackRules S sg (loadSpellGroupStackRules sg stackRows) a b =
    checkSpellGroupStackRules S sg (loadSpellGroupStackRules sg stackRows) b a ∧
  (S.getFirstRankSpell a ≠ S.getFirstRankSpell b →
    (∃ g, isSpellMemberOfSpellGroup S sg (S.getFirstRankSpell a) g = true ∧
      isSpellMemberOfSpellGroup S sg (S.getFirstRankSpell b) g = true) →
    consultedGroups S sg (S.getFirstRankSpell a) (S.getFirstRankSpell b) ≠ ∅)

/-- The loading ends. What it leaves is as it should be for two spells if and only if one of the
groups that they share, if there are any, does not lead into a cycle of such groups. -/
theorem loadSpellGroups_exact_iff (S : SpellStore) (rows : List SpellGroupRow)
    (stackRows : List StackRuleRow) (a b : UInt32) :
    ∃ sg, loadSpellGroups S rows = some sg ∧ (GroupsExact S rows stackRows a b sg ↔
      (S.getFirstRankSpell a ≠ S.getFirstRankSpell b → (∃ g, Shared S rows a b g) →
        ∃ g, Shared S rows a b g ∧ ¬ LeadsIntoCycle S rows a b g)) := by
  obtain ⟨sg,hload,hrows,hmem⟩ := exists_loadSpellGroups S rows
  have hsg : Collected S rows sg := ⟨hrows,hmem⟩
  have hshared : ∀ g, (isSpellMemberOfSpellGroup S sg (S.getFirstRankSpell a) g = true ∧
      isSpellMemberOfSpellGroup S sg (S.getFirstRankSpell b) g = true) ↔ Shared S rows a b g :=
    fun g => and_congr hsg.isMember_iff hsg.isMember_iff
  refine ⟨sg,hload,?_⟩
  unfold GroupsExact
  simp only [hshared,hsg.consulted_nonempty_iff]
  constructor
  · rintro ⟨-,-,hconsulted⟩
    exact hconsulted
  · intro hconsulted
    refine ⟨fun s g hfirst => ?_,hsg.check_comm _ a b,hconsulted⟩
    rw [hsg.isMember_iff,hfirst]

def mutualRows : List SpellGroupRow := [⟨1001,11⟩,⟨1001,12⟩,⟨1001,-1002⟩,⟨1002,-1001⟩]

def unrankedStore : SpellStore := ⟨fun spellId => spellId ≠ 0,fun _ => none⟩

/-- Both groups hold both spells, and neither rule is asked for. -/
theorem mutualGroups_unasked : ¬ ∀ (S : SpellStore) (rows : List SpellGroupRow)
    (stackRows : List StackRuleRow) (a b : UInt32),
      ∃ sg, loadSpellGroups S rows = some sg ∧ GroupsExact S rows stackRows a b sg := by
  intro h
  obtain ⟨sg,hload,-,-,hconsulted⟩ := h unrankedStore mutualRows [⟨1001,1⟩,⟨1002,1⟩] 11 12
  have hsg : sg = ⟨[(1001,11),(1001,12),(1001,-1002),(1002,-1001)],
      [(11,1001),(12,1001),(11,1002),(12,1002)]⟩ := by
    refine Option.some.inj (hload.symm.trans ?_)
    decide +kernel
  subst hsg
  refine hconsulted (by decide) ⟨1001,?_⟩ ?_
  · decide +kernel
  · decide +kernel

end TrinityCore.SpellMgr
