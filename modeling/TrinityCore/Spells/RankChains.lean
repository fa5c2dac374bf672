import TrinityCore.Spells.SpellMgr

set_option autoImplicit false

/-!
What `LoadSpellRanks` writes are the chains of the talents, and behind them those of the table. The
nodes are those of sound chains if and only if no chain is cut by a later one, or by a gap between
the ranks of a talent.
-/

namespace TrinityCore.SpellMgr

section Chains

variable (spellInfoMap : UInt32 → Bool)

def known (spellId : UInt32) : Bool := spellId ≠ 0 ∧ spellInfoMap spellId

def TalentEntry.chain (talent : TalentEntry) : Option (Linked.Chain UInt32) :=
  match talent.lastSpell spellInfoMap, talent.firstSpell spellInfoMap with
  | some lastSpell, some firstSpell => some {
      elems := talent.rankID.takeWhile (known spellInfoMap)
      first := some firstSpell
      last := some lastSpell
      before := none
      after := (talent.rankID.dropWhile (known spellInfoMap)).head?.bind
        (getSpellInfo spellInfoMap) }
  | _, _ => none

def groups : Nat → List SpellRank → List (Int32 × RankChain)
  | 0, _ => []
  | turns+1, rows =>
    if rows = [] then []
    else
      let (lastSpell,rankChain,rest) := fillChain (-1) rows
      (lastSpell,rankChain) :: groups turns rest

def rowChain (group : Int32 × RankChain) : Option (Linked.Chain UInt32) :=
  match getSpellInfo spellInfoMap group.1.toUInt32 with
  | none => none
  | some first =>
    if 2 ≤ group.2.length ∧ validRanks spellInfoMap 0 group.2 then some {
      elems := group.2.map Prod.fst
      first := some first
      last := group.2.getLast?.bind fun back => getSpellInfo spellInfoMap back.1
      before := getSpellInfo spellInfoMap 0
      after := none }
    else none

def talentChains (talents : List (Option TalentEntry)) : List (Linked.Chain UInt32) :=
  (talents.filterMap id).filterMap (TalentEntry.chain spellInfoMap)

def rowChains (rows : List SpellRank) : List (Linked.Chain UInt32) :=
  (groups rows.length rows).filterMap (rowChain spellInfoMap)

def spellChains (talents : List (Option TalentEntry)) (rows : List SpellRank) :
    List (Linked.Chain UInt32) :=
  talentChains spellInfoMap talents ++ rowChains spellInfoMap rows

end Chains

section Written

variable {spellInfoMap : UInt32 → Bool}

theorem getSpellInfo_of_loaded {spellId : UInt32} (h : spellInfoMap spellId) :
    getSpellInfo spellInfoMap spellId = some spellId := if_pos h

theorem getSpellInfo_eq_some {spellId s : UInt32}
    (h : getSpellInfo spellInfoMap spellId = some s) : spellId = s ∧ spellInfoMap s := by
  unfold getSpellInfo at h
  split_ifs at h with hloaded
  obtain rfl := Option.some.inj h
  exact ⟨rfl,hloaded⟩

theorem getSpellInfo_of_ne_none {spellId : UInt32}
    (h : getSpellInfo spellInfoMap spellId ≠ none) :
    getSpellInfo spellInfoMap spellId = some spellId := by
  unfold getSpellInfo at *
  split_ifs at * with hloaded
  · rfl
  · exact absurd rfl h

theorem next_takeWhile (ranks : List UInt32) :
    (if ranks.takeWhile (known spellInfoMap) = [] then
      (ranks.dropWhile (known spellInfoMap)).head?.bind (getSpellInfo spellInfoMap)
      else (ranks.takeWhile (known spellInfoMap)).head?) =
    ranks.head?.bind (getSpellInfo spellInfoMap) := by
  cases ranks with
  | nil => rfl
  | cons spellId ranks =>
    by_cases hknown : known spellInfoMap spellId
    · have hspell : spellId ≠ 0 ∧ spellInfoMap spellId := by simpa [known] using hknown
      rw [List.takeWhile_cons_of_pos hknown,if_neg (List.cons_ne_nil _ _)]
      simp [getSpellInfo_of_loaded hspell.2]
    · rw [List.takeWhile_cons_of_neg hknown,List.dropWhile_cons_of_neg hknown,if_pos rfl]

theorem loadTalentRanks_eq {firstSpell lastSpell : UInt32} {c : Linked.Chain UInt32}
    {xs ranks : List UInt32} {chains : SpellChainMap} (hfirst : c.first = some firstSpell)
    (hlast : c.last = some lastSpell) (hbefore : c.before = none)
    (hafter : c.after = (ranks.dropWhile (known spellInfoMap)).head?.bind
      (getSpellInfo spellInfoMap)) :
    loadTalentRanks spellInfoMap firstSpell lastSpell xs.length xs.getLast? ranks chains =
      c.writeFrom xs (ranks.takeWhile (known spellInfoMap)) chains := by
  induction ranks generalizing xs chains with
  | nil => rfl
  | cons spellId ranks ih =>
    by_cases hknown : known spellInfoMap spellId
    · have hspell : spellId ≠ 0 ∧ spellInfoMap spellId := by simpa [known] using hknown
      rw [List.dropWhile_cons_of_pos hknown] at hafter
      have hnode : c.node xs (ranks.takeWhile (known spellInfoMap)) = {
          first := some firstSpell
          last := some lastSpell
          rank := xs.length+1
          prev := xs.getLast?
          next := ranks.head?.bind (getSpellInfo spellInfoMap) } := by
        unfold Linked.Chain.node
        rw [hfirst,hlast,hbefore,hafter,next_takeWhile]
        cases xs <;> rfl
      have hrest := @ih (xs ++ [spellId]) (Function.update chains spellId
        (some (c.node xs (ranks.takeWhile (known spellInfoMap))))) hafter
      rw [List.length_append,List.length_singleton,List.getLast?_concat] at hrest
      rw [List.takeWhile_cons_of_pos hknown,loadTalentRanks,if_neg hspell.1,
        getSpellInfo_of_loaded hspell.2,Linked.Chain.writeFrom,← hrest,hnode]
    · have hstop : spellId ≠ 0 → getSpellInfo spellInfoMap spellId = none := by
        intro hzero
        exact if_neg fun hloaded => hknown (by simp [known,hzero,hloaded])
      rw [List.takeWhile_cons_of_neg hknown,loadTalentRanks,Linked.Chain.writeFrom]
      split_ifs with hzero
      · rfl
      · rw [hstop hzero]

theorem loadTalent_eq (chains : SpellChainMap) (talent : TalentEntry) :
    loadTalent spellInfoMap chains talent =
      ((talent.chain spellInfoMap).toList).foldl Linked.Chain.write chains := by
  unfold loadTalent TalentEntry.chain
  cases talent.lastSpell spellInfoMap with
  | none => rfl
  | some lastSpell =>
    cases talent.firstSpell spellInfoMap with
    | none => rfl
    | some firstSpell => exact @loadTalentRanks_eq _ _ _ _ [] _ _ rfl rfl rfl rfl

theorem foldl_load {α : Type} {load : SpellChainMap → α → SpellChainMap}
    {chain : α → Option (Linked.Chain UInt32)}
    (hload : ∀ chains a, load chains a = (chain a).toList.foldl Linked.Chain.write chains)
    (as : List α) (chains : SpellChainMap) :
    as.foldl load chains = (as.filterMap chain).foldl Linked.Chain.write chains := by
  induction as generalizing chains with
  | nil => rfl
  | cons a as ih =>
    rw [List.foldl_cons,hload,ih]
    cases hchain : chain a with
    | none => rw [List.filterMap_cons_none hchain]; rfl
    | some c => rw [List.filterMap_cons_some hchain]; rfl

theorem insertChain_eq {c : Linked.Chain UInt32} {prevRank : UInt32} {xs : List UInt32}
    {rankChain : RankChain} {chains : SpellChainMap}
    (hvalid : validRanks spellInfoMap xs.length rankChain) (hafter : c.after = none)
    (hprev : getSpellInfo spellInfoMap prevRank = if xs = [] then c.before else xs.getLast?) :
    insertChain spellInfoMap c.first c.last prevRank rankChain chains =
      c.writeFrom xs (rankChain.map Prod.fst) chains := by
  induction rankChain generalizing prevRank xs chains with
  | nil => rfl
  | cons entry rankChain ih =>
    obtain ⟨addedSpell,rank⟩ := entry
    rw [validRanks] at hvalid
    split_ifs at hvalid with hnone hrank
    have hloaded := getSpellInfo_of_ne_none hnone
    have hnext : (rankChain.head?.bind fun next => getSpellInfo spellInfoMap next.1) =
        (rankChain.map Prod.fst).head? := by
      cases rankChain with
      | nil => rfl
      | cons next rankChain =>
        rw [validRanks] at hvalid
        split_ifs at hvalid with hnone
        simp [getSpellInfo_of_ne_none hnone]
    have hnode : c.node xs (rankChain.map Prod.fst) = {
        first := c.first
        last := c.last
        rank := rank.toNat
        prev := getSpellInfo spellInfoMap prevRank
        next := rankChain.head?.bind fun next => getSpellInfo spellInfoMap next.1 } := by
      unfold Linked.Chain.node
      rw [hprev,hnext,hafter,not_not.mp hrank]
      cases rankChain <;> rfl
    rw [insertChain,List.map_cons,Linked.Chain.writeFrom,hnode]
    refine @ih _ (xs ++ [addedSpell]) _ ?_ ?_
    · rwa [List.length_append,List.length_singleton]
    · simp [hloaded]

theorem loadChain_eq (chains : SpellChainMap) (group : Int32 × RankChain) :
    loadChain spellInfoMap group.1 group.2 chains =
      (rowChain spellInfoMap group).toList.foldl Linked.Chain.write chains := by
  unfold loadChain rowChain
  cases getSpellInfo spellInfoMap group.1.toUInt32 with
  | none => rfl
  | some first =>
    dsimp only
    by_cases hshort : group.2.length < 2
    · rw [if_pos hshort,if_neg (by omega)]
      rfl
    · rw [if_neg hshort]
      by_cases hvalid : validRanks spellInfoMap 0 group.2
      · rw [if_neg (by simp [hvalid]),if_pos ⟨Nat.le_of_not_lt hshort,hvalid⟩]
        exact @insertChain_eq _ ⟨_,_,_,_,_⟩ _ [] _ _ hvalid rfl rfl
      · rw [if_pos (by simpa using hvalid),if_neg fun hall => hvalid hall.2]
        rfl

theorem length_fillChain_le (lastSpell : Int32) (rows : List SpellRank) :
    (fillChain lastSpell rows).2.2.length ≤ rows.length := by
  induction rows generalizing lastSpell with
  | nil => exact le_rfl
  | cons row rows ih =>
    rw [fillChain]
    dsimp only
    generalize (if lastSpell = -1 then row.firstSpellId.toInt32 else lastSpell) = lastSpell
    split_ifs
    · exact (ih lastSpell).trans (Nat.le_succ _)
    · exact le_rfl

theorem length_fillChain_lt {rows : List SpellRank} (hrows : rows ≠ []) :
    (fillChain (-1) rows).2.2.length < rows.length := by
  cases rows with
  | nil => exact absurd rfl hrows
  | cons row rows =>
    rw [fillChain]
    dsimp only
    rw [if_pos rfl,if_pos rfl]
    exact Nat.lt_succ_of_le (length_fillChain_le _ _)

theorem loadChains_eq {turns : Nat} {rows : List SpellRank} (hrows : rows ≠ [])
    (hturns : rows.length ≤ turns) (chains : SpellChainMap) :
    loadChains spellInfoMap turns rows chains =
      some (((groups turns rows).filterMap (rowChain spellInfoMap)).foldl Linked.Chain.write
        chains) := by
  induction turns generalizing rows chains with
  | zero => exact absurd (List.length_eq_zero_iff.mp (Nat.le_zero.mp hturns)) hrows
  | succ turns ih =>
    have hlt := length_fillChain_lt hrows
    have hgroups : ∀ (groups : List (Int32 × RankChain)) chains, groups.foldl
        (fun chains group => loadChain spellInfoMap group.1 group.2 chains) chains =
        (groups.filterMap (rowChain spellInfoMap)).foldl Linked.Chain.write chains :=
      foldl_load loadChain_eq
    rw [loadChains,groups,if_neg hrows,← hgroups]
    generalize fillChain (-1) rows = filled at hlt
    obtain ⟨lastSpell,rankChain,rest⟩ := filled
    dsimp only at hlt ⊢
    rw [List.foldl_cons]
    by_cases hrest : rest = []
    · rw [if_pos hrest,hrest]
      cases turns <;> rfl
    · rw [if_neg hrest,ih hrest (by omega),← hgroups]

theorem loadSpellRanks_eq (talents : List (Option TalentEntry)) (rows : List SpellRank)
    (chains : SpellChainMap) : loadSpellRanks spellInfoMap talents rows chains =
      some (Linked.write (spellChains spellInfoMap talents rows)) := by
  have htalents : loadSpellTalentRanks spellInfoMap talents chains =
      Linked.write (talentChains spellInfoMap talents) := foldl_load loadTalent_eq _ _
  unfold loadSpellRanks
  dsimp only
  by_cases hrows : rows = []
  · subst hrows
    rw [if_pos rfl,htalents]
    simp [spellChains,rowChains,groups]
  · rw [if_neg hrows,htalents,loadChains_eq hrows le_rfl]
    unfold spellChains Linked.write rowChains
    rw [List.foldl_append]

theorem talentChain_facts {talent : TalentEntry} {c : Linked.Chain UInt32}
    (hc : talent.chain spellInfoMap = some c) : 0 ∉ c.elems ∧ ∀ t, c.after = some t → t = 0 := by
  unfold TalentEntry.chain at hc
  split at hc
  case h_2 => cases hc
  case h_1 =>
    obtain rfl := Option.some.inj hc
    refine ⟨fun hzero => ?_,fun t ht => ?_⟩
    · have hknown := List.mem_takeWhile_imp hzero
      simp [known] at hknown
    · obtain ⟨spellId,hhead,hinfo⟩ := Option.bind_eq_some_iff.mp ht
      obtain ⟨rfl,hloaded⟩ := getSpellInfo_eq_some hinfo
      have hstop := List.head?_dropWhile_not (known spellInfoMap) talent.rankID
      rw [hhead] at hstop
      simpa [known,hloaded] using hstop

theorem rowChain_after {group : Int32 × RankChain} {c : Linked.Chain UInt32}
    (hc : rowChain spellInfoMap group = some c) : c.after = none := by
  unfold rowChain at hc
  split at hc
  case h_1 => cases hc
  case h_2 =>
    split_ifs at hc
    obtain rfl := Option.some.inj hc
    rfl

/-- Only a talent's chain has something behind it, which is the spell of id 0. That is in no chain
of a talent. -/
theorem afterFresh_spellChains (talents : List (Option TalentEntry)) (rows : List SpellRank) :
    Linked.AfterFresh (spellChains spellInfoMap talents rows) := by
  intro earlier c later t hcs hafter
  have htalent : ∀ d ∈ talentChains spellInfoMap talents,
      0 ∉ d.elems ∧ ∀ t, d.after = some t → t = 0 := by
    intro d hd
    obtain ⟨talent,-,hchain⟩ := List.mem_filterMap.mp hd
    exact talentChain_facts hchain
  have hrow : ∀ d ∈ rowChains spellInfoMap rows, d.after = none := by
    intro d hd
    obtain ⟨group,-,hchain⟩ := List.mem_filterMap.mp hd
    exact rowChain_after hchain
  unfold spellChains at hcs
  rcases List.append_eq_append_iff.mp hcs with ⟨m,-,hrows⟩ | ⟨m,htalents,hrows⟩
  · have hc := hrow c (by rw [hrows]; simp)
    rw [hc] at hafter
    cases hafter
  · cases m with
    | nil =>
      have hc := hrow c (by rw [← List.nil_append (rowChains _ _),← hrows]; simp)
      rw [hc] at hafter
      cases hafter
    | cons b m =>
      obtain ⟨rfl,-⟩ := List.cons.inj hrows
      have hc := htalent c (by rw [htalents]; simp)
      obtain rfl := hc.2 t hafter
      exact ⟨hc.1,fun d hd => (htalent d (by rw [htalents]; simp [hd])).1⟩

end Written

/-- `LoadSpellRanks` ends, and the nodes it leaves are those of sound chains if and only if
whatever is kept of a chain is kept with its neighbours, and up to the chain's last spell. -/
theorem loadSpellRanks_sound_iff (spellInfoMap : UInt32 → Bool)
    (talents : List (Option TalentEntry)) (rows : List SpellRank) (chains : SpellChainMap) :
    ∃ nodes, loadSpellRanks spellInfoMap talents rows chains = some nodes ∧
      (Linked.Sound nodes ↔ Linked.Intact (spellChains spellInfoMap talents rows)) :=
  ⟨_,loadSpellRanks_eq talents rows chains,
    Linked.sound_iff_intact (afterFresh_spellChains talents rows)⟩

/-- The second chain takes a spell out of the first one. There are spells of the ids 1 to 4. -/
def sharedRows : List SpellRank := [⟨1,1,1⟩,⟨1,2,2⟩,⟨1,3,3⟩,⟨4,4,1⟩,⟨4,2,2⟩]

theorem not_sound_loadSpellRanks : ∃ nodes,
    loadSpellRanks (fun spellId => spellId ≠ 0 ∧ spellId < 5) [] sharedRows (fun _ => none) =
      some nodes ∧ ¬Linked.Sound nodes := by
  refine ⟨_,loadSpellRanks_eq [] sharedRows _,fun hsound => ?_⟩
  have hone : Linked.write (spellChains (fun spellId => spellId ≠ 0 ∧ spellId < 5) [] sharedRows)
      1 = some ⟨none,some 2,some 1,some 3,1⟩ := by decide +kernel
  have htwo : Linked.write (spellChains (fun spellId => spellId ≠ 0 ∧ spellId < 5) [] sharedRows)
      2 = some ⟨some 4,none,some 4,some 2,2⟩ := by decide +kernel
  obtain ⟨n,hn,hprev,-⟩ := hsound.next 1 _ 2 hone rfl
  obtain rfl := Option.some.inj (htwo.symm.trans hn)
  cases hprev

end TrinityCore.SpellMgr
