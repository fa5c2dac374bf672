import TrinityCore.Spells.RankChains

set_option autoImplicit false

namespace TrinityCore.SpellMgr

inductive Fault where
  | nullLink
  deriving DecidableEq, Repr

/-- No value stands for running out of steps. -/
def getSpellWithRank (chains : SpellChainMap) :
    Nat → UInt32 → UInt32 → Bool → Option (Except Fault UInt32)
  | 0, _, _, _ => none
  | steps+1, spellId, rank, strict =>
    match chains spellId with
    | some node =>
      if rank.toNat ≠ node.rank then
        match if node.rank < rank.toNat then node.next else node.prev with
        | none => some (.error .nullLink)
        | some link => getSpellWithRank chains steps link rank strict
      else some (.ok spellId)
    | none =>
      if strict ∧ 1 < rank.toNat then some (.ok 0)
      else some (.ok spellId)

section Chains

variable {chains : SpellChainMap} {spells xs ys : List UInt32} {spellId rank : UInt32} {strict : Bool}
  {r r' : Except Fault UInt32}

/-- The spells are a chain: each has a node with its rank, its neighbours and both ends. -/
def IsChain (chains : SpellChainMap) (spells : List UInt32) : Prop :=
  ∀ xs s ys, spells = xs ++ s :: ys → chains s = some {
    prev := xs.getLast?
    next := ys.head?
    first := spells.head?
    last := spells.getLast?
    rank := xs.length+1 }

def WellFormed (chains : SpellChainMap) : Prop :=
  ∀ s node, chains s = some node → ∃ spells, s ∈ spells ∧ IsChain chains spells

def HasRank (chains : SpellChainMap) (spellId rank t : UInt32) : Prop :=
  ∃ spells, IsChain chains spells ∧ spellId ∈ spells ∧
    ∃ xs ys, spells = xs ++ t :: ys ∧ rank.toNat = xs.length+1

def Returns (chains : SpellChainMap) (spellId rank : UInt32) (strict : Bool)
    (r : Except Fault UInt32) : Prop :=
  ∃ steps, getSpellWithRank chains steps spellId rank strict = some r

theorem getSpellWithRank_succ {steps : Nat}
    (h : getSpellWithRank chains steps spellId rank strict = some r) :
    getSpellWithRank chains (steps+1) spellId rank strict = some r := by
  induction steps generalizing spellId with
  | zero => cases h
  | succ steps ih =>
    rw [getSpellWithRank] at h ⊢
    cases hnode : chains spellId with
    | none =>
      rw [hnode] at h
      exact h
    | some node =>
      rw [hnode] at h
      dsimp only at h ⊢
      by_cases hrank : rank.toNat ≠ node.rank
      · rw [if_pos hrank] at h ⊢
        cases hlink : (if node.rank < rank.toNat then node.next else node.prev) with
        | none =>
          rw [hlink] at h
          exact h
        | some link =>
          rw [hlink] at h
          exact ih h
      · rw [if_neg hrank] at h ⊢
        exact h

theorem getSpellWithRank_le {steps steps' : Nat} (hle : steps ≤ steps')
    (h : getSpellWithRank chains steps spellId rank strict = some r) :
    getSpellWithRank chains steps' spellId rank strict = some r := by
  induction hle with
  | refl => exact h
  | step _ ih => exact getSpellWithRank_succ ih

theorem Returns.unique (h : Returns chains spellId rank strict r)
    (h' : Returns chains spellId rank strict r') : r = r' := by
  obtain ⟨steps,h⟩ := h
  obtain ⟨steps',h'⟩ := h'
  have hmax := getSpellWithRank_le (Nat.le_max_left steps steps') h
  have hmax' := getSpellWithRank_le (Nat.le_max_right steps steps') h'
  exact Option.some.inj (hmax.symm.trans hmax')

theorem Returns.link {node : SpellChainNode} {link : UInt32} (hnode : chains spellId = some node)
    (hrank : rank.toNat ≠ node.rank)
    (hlink : (if node.rank < rank.toNat then node.next else node.prev) = some link)
    (h : Returns chains link rank strict r) : Returns chains spellId rank strict r := by
  obtain ⟨steps,h⟩ := h
  refine ⟨steps+1,?_⟩
  rw [getSpellWithRank,hnode]
  dsimp only
  rw [if_pos hrank,hlink]
  exact h

theorem returns_here {node : SpellChainNode} (hnode : chains spellId = some node)
    (hrank : rank.toNat = node.rank) : Returns chains spellId rank strict (.ok spellId) := by
  refine ⟨1,?_⟩
  rw [getSpellWithRank,hnode]
  exact if_neg (not_not.mpr hrank)

theorem IsChain.up (h : IsChain chains spells) {s : UInt32} (hspells : spells = xs ++ s :: ys)
    (hrank : xs.length+1 ≤ rank.toNat) : Returns chains s rank strict
      (match spells[rank.toNat-1]? with
        | some t => .ok t
        | none => .error .nullLink) := by
  induction ys generalizing xs s with
  | nil =>
    have hnode := h xs s [] hspells
    by_cases heq : rank.toNat = xs.length+1
    · have hget : spells[rank.toNat-1]? = some s := by simp [hspells,heq]
      rw [hget]
      exact returns_here hnode heq
    · have hget : spells[rank.toNat-1]? = none := by
        rw [List.getElem?_eq_none_iff,hspells,List.length_append,List.length_singleton]
        omega
      rw [hget]
      refine ⟨1,?_⟩
      have hlt : xs.length+1 < rank.toNat := by omega
      rw [getSpellWithRank,hnode]
      dsimp only
      rw [if_pos heq,if_pos hlt]
      rfl
  | cons y ys ih =>
    have hnode := h xs s (y :: ys) hspells
    by_cases heq : rank.toNat = xs.length+1
    · have hget : spells[rank.toNat-1]? = some s := by simp [hspells,heq]
      rw [hget]
      exact returns_here hnode heq
    · have hlt : xs.length+1 < rank.toNat := by omega
      refine Returns.link hnode heq (if_pos hlt) (@ih (xs ++ [s]) y ?_ ?_)
      · simp [hspells]
      · rw [List.length_append,List.length_singleton]
        omega

theorem IsChain.down (h : IsChain chains spells) {s : UInt32} (hspells : spells = xs ++ s :: ys)
    (hone : 1 ≤ rank.toNat) (hrank : rank.toNat ≤ xs.length+1) : ∃ t,
      spells[rank.toNat-1]? = some t ∧ Returns chains s rank strict (.ok t) := by
  induction xs using List.reverseRecOn generalizing s ys with
  | nil =>
    have heq : rank.toNat = 1 := by
      rw [List.length_nil] at hrank
      omega
    exact ⟨s,by simp [hspells,heq],returns_here (h [] s ys hspells) heq⟩
  | append_singleton xs x ih =>
    have hnode := h (xs ++ [x]) s ys hspells
    by_cases heq : rank.toNat = (xs ++ [x]).length+1
    · exact ⟨s,by simp [hspells,heq],returns_here hnode heq⟩
    · rw [List.length_append,List.length_singleton] at hrank heq
      have hsplit : spells = xs ++ x :: s :: ys := by simp [hspells]
      obtain ⟨t,hget,hreturns⟩ := ih hsplit (by omega)
      refine ⟨t,hget,hreturns.link hnode (by simpa using heq) ?_⟩
      rw [if_neg (by simp; omega),List.getLast?_concat]

/-- The spell that is looked for. Where the chain has no such rank the spell stands for it itself,
or no spell does. -/
def Expected (chains : SpellChainMap) (spellId rank : UInt32) (strict : Bool) (t : UInt32) : Prop :=
  HasRank chains spellId rank t ∨
    (∀ t', ¬ HasRank chains spellId rank t') ∧ t = if strict ∧ 1 < rank.toNat then 0 else spellId

theorem IsChain.hasRank (h : IsChain chains spells) (hmem : spellId ∈ spells)
    (hone : 1 ≤ rank.toNat) {t : UInt32} (hget : spells[rank.toNat-1]? = some t) :
    HasRank chains spellId rank t := by
  obtain ⟨hlt,rfl⟩ := List.getElem?_eq_some_iff.mp hget
  refine ⟨spells,h,hmem,spells.take (rank.toNat-1),spells.drop (rank.toNat-1+1),?_,?_⟩
  · rw [← List.drop_eq_getElem_cons hlt,List.take_append_drop]
  · rw [List.length_take]
    omega

theorem IsChain.returns (h : IsChain chains spells) (hmem : spellId ∈ spells)
    (hone : 1 ≤ rank.toNat) (strict : Bool) : Returns chains spellId rank strict
      (match spells[rank.toNat-1]? with
        | some t => .ok t
        | none => .error .nullLink) := by
  obtain ⟨xs,ys,hspells⟩ := List.append_of_mem hmem
  rcases Nat.le_total (xs.length+1) rank.toNat with hle | hle
  · exact h.up hspells hle
  · obtain ⟨t,hget,hreturns⟩ := h.down hspells hone hle
    rw [hget]
    exact hreturns

theorem IsChain.loaded (h : IsChain chains spells) (hmem : spellId ∈ spells) :
    chains spellId ≠ none := by
  obtain ⟨xs,ys,hspells⟩ := List.append_of_mem hmem
  rw [h xs spellId ys hspells]
  exact Option.some_ne_none _

theorem HasRank.returns {t : UInt32} (h : HasRank chains spellId rank t) :
    Returns chains spellId rank strict (.ok t) := by
  obtain ⟨spells,hchain,hmem,xs,ys,rfl,hrank⟩ := h
  have hreturns := hchain.returns hmem (show 1 ≤ rank.toNat by omega) strict
  rw [hrank,Nat.add_sub_cancel,List.getElem?_append_right le_rfl,Nat.sub_self] at hreturns
  exact hreturns

theorem returns_of_none (hnode : chains spellId = none) : ∃ t,
    Returns chains spellId rank strict (.ok t) ∧ Expected chains spellId rank strict t := by
  have hno : ∀ t, ¬ HasRank chains spellId rank t :=
    fun t ⟨_,hchain,hmem,_⟩ => hchain.loaded hmem hnode
  refine ⟨_,⟨1,?_⟩,.inr ⟨hno,rfl⟩⟩
  rw [getSpellWithRank,hnode]
  dsimp only
  split_ifs <;> rfl

theorem wellFormed_write {cs : List (Linked.Chain UInt32)}
    (hnodup : (cs.flatMap Linked.Chain.elems).Nodup)
    (hends : ∀ c ∈ cs, c.before = none ∧ c.after = none ∧ c.first = c.elems.head? ∧
      c.last = c.elems.getLast?) : WellFormed (Linked.write cs) := by
  intro s node hnode
  obtain ⟨c,xs,ys,later,hkept,-⟩ := Linked.exists_keptIn hnode
  obtain ⟨earlier,rfl⟩ := hkept.mem
  refine ⟨c.elems,hkept.mem_elems,fun xs' s' ys' helems => ?_⟩
  obtain ⟨hbefore,hafter,hfirst,hlast⟩ := hends c (by simp)
  rw [List.flatMap_append,List.flatMap_cons] at hnodup
  have hrest := (List.nodup_append'.mp (List.nodup_append'.mp hnodup).2.1)
  have hown := hrest.1
  rw [helems] at hown
  have hkept' : Linked.KeptIn (earlier ++ c :: later) c xs' s' ys' later := by
    refine ⟨⟨earlier,rfl⟩,helems,?_,fun d hd hmem => ?_⟩
    · exact (List.nodup_cons.mp (List.nodup_append'.mp hown).2.1).1
    · exact hrest.2.2 (by rw [helems]; simp) (List.mem_flatMap.mpr ⟨d,hd,hmem⟩)
  rw [hkept'.write_eq]
  unfold Linked.Chain.node
  rw [hbefore,hafter,hfirst,hlast]
  congr 2
  · cases xs' <;> simp
  · cases ys' <;> simp

/-- The lookup ends with the spell that is looked for if and only if the spell is in no chain or
its chain goes up to the rank. -/
theorem getSpellWithRank_total_iff (hchains : WellFormed chains) (spellId rank : UInt32)
    (strict : Bool) (hrank : 1 ≤ rank.toNat) :
    (∃ t, Returns chains spellId rank strict (.ok t) ∧ Expected chains spellId rank strict t) ↔
      chains spellId = none ∨ ∃ t, HasRank chains spellId rank t := by
  constructor
  · rintro ⟨t,hreturns,-⟩
    cases hnode : chains spellId with
    | none => exact .inl rfl
    | some node =>
      obtain ⟨spells,hmem,hchain⟩ := hchains spellId node hnode
      have hwalk := hchain.returns hmem hrank strict
      cases hget : spells[rank.toNat-1]? with
      | none =>
        rw [hget] at hwalk
        cases hreturns.unique hwalk
      | some t => exact .inr ⟨t,hchain.hasRank hmem hrank hget⟩
  · rintro (hnone | ⟨t,ht⟩)
    · exact returns_of_none hnone
    · exact ⟨t,ht.returns,.inl ht⟩

end Chains

def threeRanks : SpellChainMap := Linked.write [⟨[11,12,13],some 11,some 13,none,none⟩]

theorem wellFormed_threeRanks : WellFormed threeRanks :=
  wellFormed_write (by decide) (by decide)

theorem getSpellWithRank_total_third :
    (∃ t, Returns threeRanks 11 3 true (.ok t) ∧ Expected threeRanks 11 3 true t) ↔
      threeRanks 11 = none ∨ ∃ t, HasRank threeRanks 11 3 t :=
  getSpellWithRank_total_iff wellFormed_threeRanks 11 3 true (by decide)

/-- Of the fourth rank there is no spell, and the walk follows the link of the third. -/
theorem getSpellWithRank_nullLink : ¬ ∀ chains, WellFormed chains → ∀ (spellId rank : UInt32)
    (strict : Bool), 1 ≤ rank.toNat → ∃ t, Returns chains spellId rank strict (.ok t) ∧
      Expected chains spellId rank strict t := by
  intro h
  obtain ⟨t,hreturns,-⟩ := h threeRanks wellFormed_threeRanks 11 4 false (by decide)
  have hnull : Returns threeRanks 11 4 false (.error .nullLink) := ⟨4,by decide⟩
  cases hreturns.unique hnull

end TrinityCore.SpellMgr
