import TrinityCore.Groups.Group

set_option autoImplicit false

namespace TrinityCore.Groups

open Looting (isNeed isGreed)

def isPass (v : RollVote) : Bool := v = .pass

def isCast (v : RollVote) : Bool := v ≠ .notEmitedYet ∧ v ≠ .notValid

theorem inc_eq {n : Nat} (h : n+1 < 256) : inc n = n+1 := Nat.mod_eq_of_lt h

theorem dec_eq {n : Nat} (h : 0 < n) (h' : n < 256) : dec n = n-1 := by
  unfold dec
  omega

namespace Roll

variable {r : Roll} {guid choice : Nat} {v : RollVote}

def tally (r : Roll) (p : RollVote → Bool) : Nat := r.playerVote.values.countP p

structure Accounted (r : Roll) : Prop where
  need : r.totalNeed = r.tally isNeed
  greed : r.totalGreed = r.tally isGreed
  pass : r.totalPass = r.tally isPass
  rolling : r.totalPlayersRolling = r.playerVote.size
  small : r.playerVote.size < 256

def Offered (r : Roll) : Prop :=
  ∀ v ∈ r.playerVote.values, v ≠ .notEmitedYet → v.flag &&& r.rollVoteMask ≠ 0

def Complete (r : Roll) : Prop := ∀ v ∈ r.playerVote.values, v ≠ .notEmitedYet

theorem tally_le (p : RollVote → Bool) : r.tally p ≤ r.playerVote.size := by
  unfold tally OrderedMap.size
  refine List.countP_le_length.trans ?_
  simp [OrderedMap.values]

theorem tally_cast : r.tally isNeed+r.tally isGreed+r.tally isPass = r.tally isCast := by
  unfold tally
  induction r.playerVote.values with
  | nil => rfl
  | cons v vs ih =>
    simp only [List.countP_cons]
    have hone : (if isNeed v then 1 else 0)+(if isGreed v then 1 else 0)+(if isPass v then 1 else 0) =
        if isCast v then 1 else 0 := by cases v <;> rfl
    omega

theorem Accounted.complete (h : r.Accounted) (hall : r.allCounted) : r.Complete := by
  simp only [allCounted,decide_eq_true_eq,h.rolling,h.need,h.greed,h.pass] at hall
  have hcast := tally_cast (r := r)
  have hle := tally_le (r := r) isCast
  have heq : r.playerVote.values.countP isCast = r.playerVote.values.length := by
    have hsize : r.playerVote.values.length = r.playerVote.size := by
      simp [OrderedMap.values,OrderedMap.size]
    unfold tally at *
    omega
  intro v hv
  have := List.countP_eq_length.mp heq v hv
  simp only [isCast,decide_eq_true_eq] at this
  exact this.1

section Start

theorem accounted_new (itemGUID : Nat) (item : LootItem) (loot slot : Nat) :
    (Roll.new itemGUID item loot slot).Accounted :=
  ⟨rfl,rfl,rfl,rfl,by simp [Roll.new,OrderedMap.size,OrderedMap.empty]⟩

theorem tally_insert (r : Roll) (guid : Nat) (v : RollVote) (p : RollVote → Bool) :
    (r.playerVote.insert guid v).values.countP p+
        (r.playerVote.find? guid).elim 0 (fun w => if p w then 1 else 0) =
      r.tally p+if p v then 1 else 0 :=
  OrderedMap.countP_insert p

theorem find?_of_fresh (h : guid ∉ r.playerVote.keys) : r.playerVote.find? guid = none := by
  rw [Option.eq_none_iff_forall_ne_some]
  intro w hw
  exact h (OrderedMap.mem_keys.mpr ⟨w,hw⟩)

theorem accounted_join (h : r.Accounted) (hfresh : guid ∉ r.playerVote.keys)
    (hsmall : r.playerVote.size+1 < 256) (passes : Bool) : (r.join guid passes).Accounted := by
  have hcount := fun p v => tally_insert r guid v p
  simp only [find?_of_fresh hfresh,Option.elim_none,Nat.add_zero] at hcount
  have hsize := fun v => OrderedMap.size_insert (v := v) hfresh
  have hpass := h.pass ▸ tally_le (r := r) isPass
  have hrolling := h.rolling
  cases passes with
  | true =>
    constructor
    · simp [join,tally,hcount,h.need,isNeed]
    · simp [join,tally,hcount,h.greed,isGreed]
    · simp only [join,if_true,tally,hcount,isPass,decide_true]
      rw [inc_eq (by omega),h.pass]
      rfl
    · simp only [join,if_true,hsize]
      rw [inc_eq (by omega),h.rolling]
    · simpa [join,hsize] using hsmall
  | false =>
    constructor
    · simp [join,tally,hcount,h.need,isNeed]
    · simp [join,tally,hcount,h.greed,isGreed]
    · simp [join,tally,hcount,h.pass,isPass]
    · simp only [join,Bool.false_eq_true,if_false,hsize]
      rw [inc_eq (by omega),h.rolling]
    · simpa [join,hsize] using hsmall

end Start

section Change

def choiceVote : Nat → Option RollVote
  | 0 => some .pass
  | 1 => some .need
  | 2 => some .greed
  | 3 => some .disenchant
  | _ => none

theorem vote_of_none (h : choiceVote choice = none) : r.vote guid choice = r := by
  match choice with
  | 0 | 1 | 2 | 3 => simp [choiceVote] at h
  | n+4 => rfl

theorem vote_eq (h : choiceVote choice = some v) : r.vote guid choice =
    { r with
      totalNeed := if isNeed v then inc r.totalNeed else r.totalNeed,
      totalGreed := if isGreed v then inc r.totalGreed else r.totalGreed,
      totalPass := if isPass v then inc r.totalPass else r.totalPass,
      playerVote := r.playerVote.insert guid v } := by
  match choice with
  | 0 | 1 | 2 | 3 => cases h; rfl
  | n+4 => simp [choiceVote] at h

theorem accounted_vote (h : r.Accounted) (hv : choiceVote choice = some v)
    (hfirst : r.playerVote.find? guid = some .notEmitedYet) : (r.vote guid choice).Accounted := by
  have hkey : guid ∈ r.playerVote.keys := OrderedMap.mem_keys.mpr ⟨_,hfirst⟩
  have hsize := OrderedMap.size_insert_of_mem (v := v) hkey
  -- each number grows with the votes of its kind
  have hnumber : ∀ p : RollVote → Bool, p .notEmitedYet = false → ∀ n, n = r.tally p →
      (if p v then inc n else n) = (r.playerVote.insert guid v).values.countP p := by
    intro p hp n hn
    have hcount := tally_insert r guid v p
    have hle := tally_le (r := { r with playerVote := r.playerVote.insert guid v }) p
    have hsmall := h.small
    simp only [hfirst,Option.elim_some,hp,Bool.false_eq_true,if_false,Nat.add_zero] at hcount
    simp only [tally,hsize] at hle
    split_ifs at hcount ⊢ with hpv
    · rw [inc_eq (by omega)]
      omega
    · omega
  rw [vote_eq hv]
  exact ⟨hnumber isNeed rfl _ h.need,hnumber isGreed rfl _ h.greed,hnumber isPass rfl _ h.pass,
    h.rolling.trans hsize.symm,hsize.trans_lt h.small⟩

theorem offered_vote (h : r.Offered) (hv : choiceVote choice = some v)
    (hmask : v.flag &&& r.rollVoteMask ≠ 0) : (r.vote guid choice).Offered := by
  rw [vote_eq hv]
  intro w hw hne
  obtain ⟨k,hk⟩ := OrderedMap.mem_values.mp hw
  rw [OrderedMap.find?_insert] at hk
  split_ifs at hk with heq
  · cases hk
    exact hmask
  · exact h w (OrderedMap.mem_values.mpr ⟨k,hk⟩) hne

theorem accounted_withdraw (h : r.Accounted) (ho : r.Offered)
    (hv : r.playerVote.find? guid = some v) : (r.withdraw guid v).Accounted := by
  have hkey : guid ∈ r.playerVote.keys := OrderedMap.mem_keys.mpr ⟨_,hv⟩
  have hsize := OrderedMap.size_erase hkey
  have hsmall := h.small
  have hrolling := h.rolling
  have hnumber : ∀ p : RollVote → Bool, ∀ n, n = r.tally p →
      (if p v then dec n else n) = (r.playerVote.erase guid).values.countP p := by
    intro p n hn
    have hcount := OrderedMap.countP_erase (m := r.playerVote) (k := guid) p
    have hle := tally_le (r := r) p
    unfold tally at hn hle
    rw [hv] at hcount
    simp only [Option.elim_some] at hcount
    split_ifs at hcount ⊢ with hpv
    · rw [dec_eq (by omega) (by omega)]
      omega
    · omega
  have hvalid : v ≠ .notValid := by
    intro hno
    subst hno
    have hoffered := ho _ (OrderedMap.mem_values.mpr ⟨guid,hv⟩) (by decide)
    simp [RollVote.flag] at hoffered
  refine ⟨?_,?_,?_,?_,?_⟩
  · simpa [withdraw,tally,isNeed] using hnumber isNeed _ h.need
  · simpa [withdraw,tally,isGreed] using hnumber isGreed _ h.greed
  · simpa [withdraw,tally,isPass] using hnumber isPass _ h.pass
  · simp only [withdraw,hvalid,if_false]
    rw [dec_eq (by omega) (by omega)]
    omega
  · simp only [withdraw]
    omega

theorem offered_withdraw (h : r.Offered) : (r.withdraw guid v).Offered := by
  intro w hw hne
  obtain ⟨k,hk⟩ := OrderedMap.mem_values.mp hw
  simp only [withdraw,OrderedMap.find?_erase] at hk
  split_ifs at hk
  exact h w (OrderedMap.mem_values.mpr ⟨k,hk⟩) hne

end Change

end Roll

namespace Looting

variable {s : Looting} {p : Party} {w : World} {r : Roll}

/-- All rolls are accounted for, and the numbers of their items differ. -/
structure Accounted (s : Looting) : Prop where
  rolls : ∀ r ∈ s.rollId, r.Accounted ∧ r.Offered
  distinct : s.rollId.Pairwise fun a b => a.itemGUID ≠ b.itemGUID
  known : ∀ r ∈ s.rollId, r.itemGUID < s.nextItemGUID

theorem Accounted.of_sublist {s' : Looting} (h : s.Accounted) (hsub : s'.rollId.Sublist s.rollId)
    (hnext : s'.nextItemGUID = s.nextItemGUID) : s'.Accounted := by
  refine ⟨fun r hr => h.rolls r (hsub.subset hr),h.distinct.sublist hsub,fun r hr => ?_⟩
  rw [hnext]
  exact h.known r (hsub.subset hr)

theorem Accounted.congr {s' : Looting} (h : s.Accounted) (hrolls : s'.rollId = s.rollId)
    (hnext : s'.nextItemGUID = s.nextItemGUID) : s'.Accounted :=
  h.of_sublist (hrolls ▸ List.Sublist.refl _) hnext

section Start

theorem joins (p : Party) (autoPass : Bool) (guids : List Nat) {r : Roll} (h : r.Accounted)
    (hnodup : guids.Nodup) (hfresh : ∀ guid ∈ guids, guid ∉ r.playerVote.keys)
    (hsmall : r.playerVote.size+guids.length < 256)
    (hvotes : ∀ v ∈ r.playerVote.values, v = .pass ∨ v = .notEmitedYet) :
    let r' := guids.foldl (fun r guid => r.join guid (autoPass && p.passOnGroupLoot guid)) r
    r'.Accounted ∧ (∀ v ∈ r'.playerVote.values, v = .pass ∨ v = .notEmitedYet) ∧
      r'.itemGUID = r.itemGUID ∧ r'.rollVoteMask = r.rollVoteMask := by
  induction guids generalizing r with
  | nil => exact ⟨h,hvotes,rfl,rfl⟩
  | cons guid guids ih =>
    rw [List.nodup_cons] at hnodup
    rw [List.length_cons] at hsmall
    have hguid := hfresh guid List.mem_cons_self
    generalize hpass : (autoPass && p.passOnGroupLoot guid) = passes
    have hjoin : ∃ v, (r.join guid passes).playerVote = r.playerVote.insert guid v ∧
        (v = .pass ∨ v = .notEmitedYet) := by
      cases passes with
      | true => exact ⟨.pass,rfl,.inl rfl⟩
      | false => exact ⟨.notEmitedYet,rfl,.inr rfl⟩
    have hsame : (r.join guid passes).itemGUID = r.itemGUID ∧
        (r.join guid passes).rollVoteMask = r.rollVoteMask := by
      cases passes <;> exact ⟨rfl,rfl⟩
    obtain ⟨v,hinsert,hv⟩ := hjoin
    have hacc := Roll.accounted_join h hguid (by omega) passes
    have hrest := ih hacc hnodup.2 ?_ ?_ ?_
    · rw [hsame.1,hsame.2] at hrest
      simpa only [List.foldl_cons,hpass] using hrest
    · intro guid' hmem hkey
      rw [hinsert,OrderedMap.mem_keys_insert] at hkey
      rcases hkey with rfl | hkey
      · exact hnodup.1 hmem
      · exact hfresh guid' (List.mem_cons_of_mem _ hmem) hkey
    · rw [hinsert,OrderedMap.size_insert hguid]
      omega
    · intro w hw
      rw [hinsert] at hw
      obtain ⟨k,hk⟩ := OrderedMap.mem_values.mp hw
      rw [OrderedMap.find?_insert] at hk
      split_ifs at hk
      · exact Option.some.inj hk ▸ hv
      · exact hvotes w (OrderedMap.mem_values.mpr ⟨k,hk⟩)

theorem newRoll_spec (hp : p.members.val.length < 256) (s : Looting) (item : LootItem)
    (loot slot : Nat) (autoPass : Bool) :
    let r := newRoll p s item loot slot autoPass
    r.Accounted ∧ (∀ v ∈ r.playerVote.values, v = .pass ∨ v = .notEmitedYet) ∧
      r.itemGUID = s.nextItemGUID ∧ r.rollVoteMask = rollAllTypeNoDisenchant := by
  have hlength := List.length_filter_le
    (fun guid => p.allowedForPlayer item guid && p.isWithinDistInMap guid) p.members.val
  refine joins p autoPass _ (Roll.accounted_new _ _ _ _) (p.members.property.filter _) ?_ ?_ ?_
  · intro guid _ hmem
    simp [Roll.new,OrderedMap.keys,OrderedMap.empty] at hmem
  · simp only [Roll.new,OrderedMap.size,OrderedMap.empty,List.length_nil]
    omega
  · simp [Roll.new,OrderedMap.values,OrderedMap.empty]

theorem pass_offered (proto : ItemTemplate) (stripNeed : Bool) :
    RollVote.pass.flag &&& voteMask p proto stripNeed rollAllTypeNoDisenchant ≠ 0 := by
  unfold voteMask
  dsimp only
  split_ifs <;> decide

theorem accounted_startRoll (h : s.Accounted) (hr : r.Accounted) (ho : r.Offered)
    (hguid : r.itemGUID = s.nextItemGUID) : (s.startRoll r).Accounted := by
  unfold startRoll
  dsimp only
  split_ifs
  · refine ⟨?_,?_,?_⟩
    · intro r' hr'
      rcases List.mem_append.mp hr' with hr' | hr'
      · exact h.rolls r' hr'
      · rw [List.mem_singleton.mp hr']
        exact ⟨hr,ho⟩
    · refine List.pairwise_append.mpr ⟨h.distinct,List.pairwise_singleton _ _,?_⟩
      intro a ha b hb
      have := h.known a ha
      rw [List.mem_singleton.mp hb]
      omega
    · intro r' hr'
      simp only [modifyLoot]
      rcases List.mem_append.mp hr' with hr' | hr'
      · exact Nat.lt_succ_of_lt (h.known r' hr')
      · rw [List.mem_singleton.mp hr',hguid]
        exact Nat.lt_succ_self _
  · exact ⟨h.rolls,h.distinct,fun r hr => Nat.lt_succ_of_lt (h.known r hr)⟩

theorem offered_of_start {r : Roll}
    (hvotes : ∀ v ∈ r.playerVote.values, v = .pass ∨ v = .notEmitedYet)
    (hmask : RollVote.pass.flag &&& r.rollVoteMask ≠ 0) : r.Offered := by
  intro v hv hne
  rcases hvotes v hv with rfl | rfl
  · exact hmask
  · exact absurd rfl hne

theorem accounted_offerItem (hp : p.members.val.length < 256) (h : s.Accounted)
    (stripNeed : Bool) (loot slot : Nat) : (offerItem p stripNeed loot s slot).Accounted := by
  unfold offerItem
  split
  · exact h
  · rename_i item _
    split_ifs
    · exact h
    · split
      · exact h
      · rename_i proto _
        split_ifs
        · obtain ⟨hacc,hvotes,hguid,hmask⟩ := newRoll_spec hp s item loot slot true
          refine accounted_startRoll h ⟨hacc.need,hacc.greed,hacc.pass,hacc.rolling,hacc.small⟩ ?_ hguid
          refine offered_of_start hvotes ?_
          simp only [hmask]
          exact pass_offered proto stripNeed
        · exact h.congr rfl rfl

theorem accounted_offerQuestItem (hp : p.members.val.length < 256) (h : s.Accounted)
    (loot first i : Nat) : (offerQuestItem p loot first s i).Accounted := by
  unfold offerQuestItem
  split
  · exact h
  · rename_i item _
    split_ifs
    · split
      · exact h
      · obtain ⟨hacc,hvotes,hguid,hmask⟩ := newRoll_spec hp s item loot (first+i) false
        refine accounted_startRoll h hacc (offered_of_start hvotes ?_) hguid
        rw [hmask]
        decide
    · exact h

theorem accounted_offer (hp : p.members.val.length < 256) (h : s.Accounted) (stripNeed : Bool)
    (loot : Nat) : (s.offer p stripNeed loot).Accounted := by
  unfold offer
  split
  · exact h
  · rename_i l _
    have hitems := List.foldlRecOn (List.range l.items.length) (offerItem p stripNeed loot) h
      fun s h slot _ => accounted_offerItem hp h stripNeed loot slot
    exact List.foldlRecOn _ _ hitems fun s h i _ =>
      accounted_offerQuestItem hp h loot l.items.length i

end Start

section Decide

variable {allowedMap : Option Nat} {i loot : Nat} {guid playerGUID choice : Nat}

structure SameRolls (s s' : Looting) : Prop where
  rollId : s'.rollId = s.rollId
  next : s'.nextItemGUID = s.nextItemGUID

theorem SameRolls.refl (s : Looting) : SameRolls s s := ⟨rfl,rfl⟩

theorem SameRolls.trans {s₁ s₂ s₃ : Looting} (h : SameRolls s₁ s₂) (h' : SameRolls s₂ s₃) :
    SameRolls s₁ s₃ := ⟨h'.rollId.trans h.rollId,h'.next.trans h.next⟩

theorem sameRolls_modifyLoot (f : Loot → Loot) : SameRolls s (s.modifyLoot loot f) := ⟨rfl,rfl⟩

theorem sameRolls_award (o : RollOff) : SameRolls s (s.award w r o) := by
  unfold award
  split_ifs
  · exact sameRolls_modifyLoot _
  · split
    · exact .refl s
    · split_ifs
      · exact sameRolls_modifyLoot _
      · exact sameRolls_modifyLoot _
  · exact .refl s

theorem sameRolls_settle (eligible : RollVote → Bool) (total : Nat) :
    SameRolls s (settle w allowedMap s r eligible total).1 := by
  unfold settle
  dsimp only
  split_ifs
  · exact .refl s
  · exact sameRolls_award _
  · exact .refl s

theorem sameRolls_settleNeed : SameRolls s (settleNeed w allowedMap s r).1 := by
  unfold settleNeed
  split_ifs
  · exact sameRolls_settle _ _
  · exact .refl s

theorem sameRolls_settleGreed (totalNeed : Nat) :
    SameRolls s (settleGreed w allowedMap s r totalNeed).1 := by
  unfold settleGreed
  split_ifs
  · exact sameRolls_settle _ _
  · exact .refl s

theorem sameRolls_countTheRoll (w : World) (allowedMap : Option Nat) (s : Looting) (i : Nat) :
    SameRolls { s with rollId := s.rollId.eraseIdx i } (s.countTheRoll w allowedMap i) := by
  unfold countTheRoll
  split
  · rename_i hnone
    rw [List.getElem?_eq_none_iff] at hnone
    rw [List.eraseIdx_of_length_le hnone]
    exact .refl s
  · rename_i r _
    have hgreed : ∀ totalNeed, SameRolls { s with rollId := s.rollId.eraseIdx i }
        (settleGreed w allowedMap (settleNeed w allowedMap
          { s with rollId := s.rollId.eraseIdx i } r).1 r totalNeed).1 := fun totalNeed =>
      sameRolls_settleNeed.trans (sameRolls_settleGreed totalNeed)
    dsimp only
    split_ifs
    · exact .refl _
    · exact (hgreed _).trans (sameRolls_modifyLoot _)
    · exact hgreed _

theorem accounted_countTheRoll (h : s.Accounted) (w : World) (allowedMap : Option Nat) (i : Nat) :
    (s.countTheRoll w allowedMap i).Accounted := by
  have hsame := sameRolls_countTheRoll w allowedMap s i
  exact h.of_sublist (hsame.rollId ▸ List.eraseIdx_sublist _ _) hsame.next

/-- What each end of a single roll keeps, the end of the rolls keeps. -/
theorem endRoll_induction {P : Looting → Prop} {w : World} {allowedMap : Option Nat}
    (hstep : ∀ s i, P s → P (s.countTheRoll w allowedMap i)) (h : P s) (loot : Nat) :
    P (s.endRoll w loot allowedMap) := by
  unfold endRoll
  generalize s.rollId.length = n
  induction n generalizing s with
  | zero => exact h
  | succ n ih =>
    unfold endRolls
    split
    · exact h
    · exact ih (hstep s _ h)

theorem openRoll_spec (h : s.openRoll playerGUID guid = some (i,r)) :
    s.rollId[i]? = some r ∧ r.itemGUID = guid ∧ ∃ v, r.playerVote.find? playerGUID = some v := by
  unfold openRoll at h
  split at h
  · simp at h
  · rename_i j hroll
    split at h
    · simp at h
    · rename_i r' hr'
      split_ifs at h with hvote hitems
      obtain ⟨rfl,rfl⟩ : j = i ∧ r' = r := by simpa using h
      obtain ⟨hlt,hfound,_⟩ := List.findIdx?_eq_some_iff_getElem.mp hroll
      have hget := (List.getElem?_eq_some_iff.mp hr').2
      rw [hget] at hfound
      simp only [decide_eq_true_eq] at hfound
      exact ⟨hr',hfound.1,Option.ne_none_iff_exists'.mp hvote⟩

theorem map_itemGUID_set {r' : Roll} (hr : s.rollId[i]? = some r)
    (hguid : r'.itemGUID = r.itemGUID) :
    (s.rollId.set i r').map Roll.itemGUID = s.rollId.map Roll.itemGUID := by
  obtain ⟨hlt,rfl⟩ := List.getElem?_eq_some_iff.mp hr
  have hlt' : i < (s.rollId.map Roll.itemGUID).length := by simpa using hlt
  rw [List.map_set,hguid,← List.getElem_map Roll.itemGUID (h := hlt'),List.set_getElem_self]

theorem Accounted.set (h : s.Accounted) (r' : Roll) (hr : s.rollId[i]? = some r)
    (hacc : r'.Accounted) (ho : r'.Offered) (hguid : r'.itemGUID = r.itemGUID) :
    Accounted { s with rollId := s.rollId.set i r' } := by
  have hmap := map_itemGUID_set hr hguid
  refine ⟨fun r'' hr'' => ?_,?_,fun r'' hr'' => ?_⟩
  · rcases List.mem_or_eq_of_mem_set hr'' with hr'' | rfl
    · exact h.rolls r'' hr''
    · exact ⟨hacc,ho⟩
  · have hdistinct : (s.rollId.map Roll.itemGUID).Nodup := List.pairwise_map.mpr h.distinct
    rw [← hmap] at hdistinct
    exact List.pairwise_map.mp hdistinct
  · rcases List.mem_or_eq_of_mem_set hr'' with hr'' | rfl
    · exact h.known r'' hr''
    · rw [hguid]
      exact h.known r (List.mem_of_getElem? hr)

/-- The player has not voted before, and for something that the roll offers. -/
def FirstVote (r : Roll) (playerGUID choice : Nat) : Prop :=
  ∀ v ∈ Roll.choiceVote choice,
    r.playerVote.find? playerGUID = some .notEmitedYet ∧ v.flag &&& r.rollVoteMask ≠ 0

theorem firstVote_spec (h : s.Accounted) (hr : r ∈ s.rollId)
    (hfirst : FirstVote r playerGUID choice) :
    (r.vote playerGUID choice).Accounted ∧ (r.vote playerGUID choice).Offered ∧
      (r.vote playerGUID choice).itemGUID = r.itemGUID := by
  obtain ⟨hacc,ho⟩ := h.rolls r hr
  cases hchoice : Roll.choiceVote choice with
  | none =>
    rw [Roll.vote_of_none hchoice]
    exact ⟨hacc,ho,rfl⟩
  | some v =>
    obtain ⟨hnot,hmask⟩ := hfirst v hchoice
    refine ⟨Roll.accounted_vote hacc hchoice hnot,Roll.offered_vote ho hchoice hmask,?_⟩
    rw [Roll.vote_eq hchoice]

theorem accounted_countRollVote (h : s.Accounted) (w : World)
    (hok : ∀ e ∈ s.openRoll playerGUID guid, FirstVote e.2 playerGUID choice) :
    (s.countRollVote w playerGUID guid choice).Accounted := by
  unfold countRollVote
  split
  · exact h
  · rename_i i r hopen
    have hr := (openRoll_spec hopen).1
    obtain ⟨hacc,ho,hguid⟩ := firstVote_spec h (List.mem_of_getElem? hr) (hok (i,r) hopen)
    have hset := h.set _ hr hacc ho hguid
    dsimp only
    split_ifs
    · exact accounted_countTheRoll hset w none i
    · exact hset

theorem decided_complete (h : s.Accounted) (w : World)
    (hok : ∀ e ∈ s.openRoll playerGUID guid, FirstVote e.2 playerGUID choice)
    {r : Roll} (hr : r ∈ s.rollId)
    (hgone : ∀ r' ∈ (s.countRollVote w playerGUID guid choice).rollId, r'.itemGUID ≠ r.itemGUID) :
    (r.vote playerGUID choice).Complete := by
  obtain ⟨j,hj⟩ := List.mem_iff_getElem?.mp hr
  by_contra hnot
  unfold countRollVote at hgone
  split at hgone
  · exact hgone r hr rfl
  · rename_i i r₀ hopen
    have hi := (openRoll_spec hopen).1
    obtain ⟨hacc,ho,hguid⟩ := firstVote_spec h (List.mem_of_getElem? hi) (hok (i,r₀) hopen)
    have hlt := (List.getElem?_eq_some_iff.mp hi).1
    by_cases hji : j = i
    · obtain rfl : r₀ = r := Option.some.inj (hi.symm.trans (hji ▸ hj))
      dsimp only at hgone
      split_ifs at hgone with hall
      · exact hnot (hacc.complete hall)
      · refine hgone (r₀.vote playerGUID choice) ?_ hguid
        exact List.mem_of_getElem? (List.getElem?_set_self hlt)
    · refine hgone r ?_ rfl
      have hset : (s.rollId.set i (r₀.vote playerGUID choice))[j]? = some r := by
        rw [List.getElem?_set_ne (Ne.symm hji),hj]
      dsimp only
      split_ifs
      · rw [(sameRolls_countTheRoll w none _ i).rollId]
        exact List.mem_eraseIdx_iff_getElem?.mpr ⟨j,hji,hset⟩
      · exact List.mem_of_getElem? hset

end Decide

section Remove

variable {i guid : Nat}

theorem openRoll_set_withdraw {v : RollVote}
    (hdistinct : s.rollId.Pairwise fun a b => a.itemGUID ≠ b.itemGUID) (hr : s.rollId[i]? = some r) :
    openRoll { s with rollId := s.rollId.set i (r.withdraw guid v) } guid r.itemGUID = none := by
  have hlt := (List.getElem?_eq_some_iff.mp hr).1
  rw [Option.eq_none_iff_forall_ne_some]
  rintro ⟨j,r'⟩ hopen
  obtain ⟨hj,hguid,v',hv'⟩ := openRoll_spec hopen
  dsimp only at hj
  by_cases hji : j = i
  · subst hji
    rw [List.getElem?_set_self hlt] at hj
    cases hj
    simp [Roll.withdraw,OrderedMap.find?_erase] at hv'
  · rw [List.getElem?_set_ne (Ne.symm hji)] at hj
    have hdistinct : (s.rollId.map Roll.itemGUID).Nodup := List.pairwise_map.mpr hdistinct
    have heq : (s.rollId.map Roll.itemGUID)[j]? = (s.rollId.map Roll.itemGUID)[i]? := by
      simp [hj,hr,hguid]
    have hlt' : j < (s.rollId.map Roll.itemGUID).length := by
      simpa using (List.getElem?_eq_some_iff.mp hj).1
    exact hji ((List.getElem?_inj hlt' hdistinct).mp heq)

/-- The vote of a member who leaves is taken back, and the call of `CountRollVote` afterwards
finds no vote of the member. -/
theorem removeVote_spec (h : s.Accounted) (w : World) (guid i : Nat) :
    (s.removeVote w guid i).Accounted ∧
      (s.removeVote w guid i).rollId.map Roll.itemGUID = s.rollId.map Roll.itemGUID := by
  unfold removeVote
  split
  · exact ⟨h,rfl⟩
  · rename_i r hr
    split
    · exact ⟨h,rfl⟩
    · rename_i v hv
      obtain ⟨hacc,ho⟩ := h.rolls r (List.mem_of_getElem? hr)
      have hset := h.set (r.withdraw guid v) hr (Roll.accounted_withdraw hacc ho hv)
        (Roll.offered_withdraw ho) rfl
      unfold countRollVote
      rw [openRoll_set_withdraw h.distinct hr]
      exact ⟨hset,map_itemGUID_set hr rfl⟩

theorem removeVotes_spec (h : s.Accounted) (w : World) (guid : Nat) :
    (s.removeVotes w guid).Accounted ∧
      (s.removeVotes w guid).rollId.map Roll.itemGUID = s.rollId.map Roll.itemGUID := by
  unfold removeVotes
  refine List.foldlRecOn (motive := fun s' : Looting => s'.Accounted ∧
    s'.rollId.map Roll.itemGUID = s.rollId.map Roll.itemGUID) _ _ ⟨h,rfl⟩ ?_
  intro s' hs' i _
  obtain ⟨hacc,hmap⟩ := removeVote_spec hs'.1 w guid i
  exact ⟨hacc,hmap.trans hs'.2⟩

end Remove

end Looting

namespace Realm

open Looting (FirstVote isNeed isGreed)

variable {s : Realm}

/-- Votes are first votes for something that the roll offers, and a roll starts with fewer
players than a byte counts. -/
def VoteOk (s : Realm) : Action → Prop
  | .countRollVote _ playerGUID guid choice =>
    ∀ e ∈ s.looting.openRoll playerGUID guid, FirstVote e.2 playerGUID choice
  | .groupLoot p _ => p.members.val.length < 256
  | .needBeforeGreed p _ => p.members.val.length < 256
  | _ => True

theorem looting_addMember (guid : Nat) : (s.addMember guid).looting = s.looting := by
  unfold addMember
  split
  · rfl
  · split <;> rfl

theorem looting_create (leader : Nat) (kind : GroupKind) :
    (s.create leader kind).looting = s.looting := by
  unfold create
  split
  · rfl
  · exact looting_addMember leader

theorem looting_changeLeader (w : World) (guid : Nat) :
    (s.changeLeader w guid).looting = s.looting := by
  unfold changeLeader
  split
  · rfl
  · split_ifs <;> rfl

theorem looting_pickLeader (w : World) (guid : Nat) :
    (s.pickLeader w guid).looting = s.looting := by
  unfold pickLeader
  split
  · rfl
  · split_ifs
    · split
      · rfl
      · exact looting_changeLeader w _
    · rfl

theorem looting_changeMembersGroup (guid group : Nat) :
    (s.changeMembersGroup guid group).looting = s.looting := by
  unfold changeMembersGroup
  split
  · rfl
  · split
    · split
      · rfl
      · split <;> rfl
    · rfl

theorem looting_changeSubGroup (sender guid groupNr : Nat) :
    (s.handleGroupChangeSubGroup sender guid groupNr).looting = s.looting := by
  unfold handleGroupChangeSubGroup
  split
  · rfl
  · split_ifs
    · rfl
    · rfl
    · rfl
    · exact looting_changeMembersGroup guid groupNr

theorem looting_setAssistant (guid : Nat) (apply : Bool) :
    (s.setAssistant guid apply).looting = s.looting := by
  unfold setAssistant
  split
  · rfl
  · split <;> rfl

theorem looting_convertToRaid : s.convertToRaid.looting = s.looting := by
  unfold convertToRaid
  split <;> rfl

/-- A property of the rolls and loots of a group that everything that happens to them keeps, as
long as the steps are guarded. -/
structure Kept (G : Realm → Action → Prop) (Q : Looting → Prop) : Prop where
  noRolls : ∀ {s}, Q s → Q { s with rollId := [] }
  restart : ∀ {s}, Q s → Q { s with rollId := [], loots := fun _ => none }
  addLoot : ∀ {s}, Q s → ∀ l, Q (s.addLoot l)
  clearLoot : ∀ {s}, Q s → ∀ loot, Q (s.clearLoot loot)
  groupLoot : ∀ {s : Realm}, Q s.looting → ∀ p loot, G s (.groupLoot p loot) →
    Q (s.looting.offer p false loot)
  needBeforeGreed : ∀ {s : Realm}, Q s.looting → ∀ p loot, G s (.needBeforeGreed p loot) →
    Q (s.looting.offer p true loot)
  countRollVote : ∀ {s : Realm}, Q s.looting → ∀ w playerGUID guid choice,
    G s (.countRollVote w playerGUID guid choice) → Q (s.looting.countRollVote w playerGUID guid choice)
  endRoll : ∀ {s}, Q s → ∀ w loot allowedMap, Q (s.endRoll w loot allowedMap)
  removeVotes : ∀ {s}, Q s → ∀ w guid, Q (s.removeVotes w guid)

section Kept

variable {G : Realm → Action → Prop} {Q : Looting → Prop}

theorem kept_withGroup {f : Looting → Looting} (h : Q s.looting) (hf : Q (f s.looting)) :
    Q (s.withGroup f).looting := by
  unfold withGroup
  split_ifs
  · exact hf
  · exact h

variable (hQ : Kept G Q)
include hQ

theorem kept_disband (h : Q s.looting) : Q s.disband.looting := by
  unfold disband
  split
  · exact h
  · exact hQ.noRolls h

theorem kept_disbandIfSmall (h : Q s.looting) (q : Removal) : Q (s.disbandIfSmall q).looting := by
  unfold disbandIfSmall
  split
  · exact h
  · split_ifs
    · exact kept_disband hQ h
    · exact kept_disband hQ h
    · exact h

theorem kept_removeMember (h : Q s.looting) (q : Removal) (guid : Nat) :
    Q (s.removeMember q guid).looting := by
  unfold removeMember
  split
  · exact h
  · split_ifs
    · exact h
    all_goals first
      | exact kept_disband hQ h
      | refine kept_disbandIfSmall hQ ?_ q
        rw [looting_pickLeader]
        exact hQ.removeVotes h q.world guid

theorem kept_step (a : Action) (h : Q s.looting) (hok : G s a) : Q (s.step a).looting := by
  cases a with
  | create leader kind => exact looting_create (s := s) leader kind ▸ h
  | addMember guid => exact looting_addMember (s := s) guid ▸ h
  | removeMember q guid => exact kept_removeMember hQ h q guid
  | changeLeader w guid => exact looting_changeLeader (s := s) w guid ▸ h
  | changeSubGroup sender guid groupNr =>
    exact looting_changeSubGroup (s := s) sender guid groupNr ▸ h
  | setAssistant guid apply => exact looting_setAssistant (s := s) guid apply ▸ h
  | convertToRaid => exact looting_convertToRaid (s := s) ▸ h
  | disband => exact kept_disband hQ h
  | reload characters =>
    change Q (s.reload characters).looting
    unfold reload
    split
    · exact hQ.restart h
    · split_ifs
      · exact hQ.restart h
      · exact hQ.restart h
  | addLoot l => exact hQ.addLoot h l
  | clearLoot loot => exact hQ.clearLoot h loot
  | groupLoot p loot => exact kept_withGroup h (hQ.groupLoot h p loot hok)
  | needBeforeGreed p loot => exact kept_withGroup h (hQ.needBeforeGreed h p loot hok)
  | countRollVote w playerGUID guid choice =>
    exact kept_withGroup h (hQ.countRollVote h w playerGUID guid choice hok)
  | endRoll w loot allowedMap => exact kept_withGroup h (hQ.endRoll h w loot allowedMap)

end Kept

theorem kept_accounted : Kept VoteOk Looting.Accounted where
  noRolls h := h.of_sublist (List.nil_sublist _) rfl
  restart h := h.of_sublist (List.nil_sublist _) rfl
  addLoot h _ := h.congr rfl rfl
  clearLoot h _ := h.congr rfl rfl
  groupLoot h _ loot hok := Looting.accounted_offer hok h false loot
  needBeforeGreed h _ loot hok := Looting.accounted_offer hok h true loot
  countRollVote h w _ _ _ hok := Looting.accounted_countRollVote h w hok
  endRoll h w loot allowedMap := Looting.endRoll_induction (P := Looting.Accounted)
    (fun _ i h => Looting.accounted_countTheRoll h w allowedMap i) h loot
  removeVotes h w guid := (Looting.removeVotes_spec h w guid).1

/-- While each vote that a roll takes is the first one of its player, for something that the
roll offers, the numbers of all rolls are those of the recorded votes, and votes decide a
roll only when everybody has voted. -/
theorem votes_counted_once (as : List Action) (hok : Run.Guarded step VoteOk start as) :
    let s := Run.exec step start as
    (∀ r ∈ s.looting.rollId, r.totalNeed = r.tally isNeed ∧ r.totalGreed = r.tally isGreed ∧
      r.totalPass = r.tally isPass ∧ r.Offered) ∧
    (∀ w playerGUID guid choice, s.VoteOk (.countRollVote w playerGUID guid choice) →
      ∀ r ∈ s.looting.rollId,
        (∀ r' ∈ (s.looting.countRollVote w playerGUID guid choice).rollId,
          r'.itemGUID ≠ r.itemGUID) → (r.vote playerGUID choice).Complete) ∧
    (∀ w guid, (s.looting.removeVotes w guid).rollId.map Roll.itemGUID =
      s.looting.rollId.map Roll.itemGUID) := by
  intro s
  have hstart : start.looting.Accounted := by
    refine ⟨fun r hr => ?_,.nil,fun r hr => ?_⟩
    · simp [start,Looting.empty] at hr
    · simp [start,Looting.empty] at hr
  have h : s.looting.Accounted :=
    hok.inv (P := fun s => s.looting.Accounted) (fun _ a h hok => kept_step kept_accounted a h hok) hstart
  refine ⟨fun r hr => ?_,?_,?_⟩
  · obtain ⟨hacc,ho⟩ := h.rolls r hr
    exact ⟨hacc.need,hacc.greed,hacc.pass,ho⟩
  · intro w playerGUID guid choice hvote r hr hgone
    exact Looting.decided_complete h w hvote hr hgone
  · intro w guid
    exact (Looting.removeVotes_spec h w guid).2

section Example

def threeMembers : Party where
  members := ⟨[1,2,3],by decide⟩
  lootThreshold := 2
  maxEnchantingLevel := 0
  itemTemplate _ := some
    { quality := 2, disenchantID := 0, requiredDisenchantSkill := 0, needRollDisabled := false }
  allowedForPlayer _ _ := true
  isWithinDistInMap _ := true
  passOnGroupLoot _ := false

def quietWorld : World where
  findPlayer guid := if guid = 0 then none else some 0
  isConnected _ := true
  connected_of_find _ _ _ := rfl
  findPlayer_zero := rfl
  urand _ guid := Fin.ofNat 100 guid
  canStoreNewItem _ _ _ _ := true
  materials _ := []
  canStoreMaterial _ _ := true

def oneItem : Loot where
  items := [⟨25,1,false,false,false,false,false⟩]
  questItems := []
  unlootedCount := 1

def rollStarted : List Action :=
  [.create 1 .party,.addMember 2,.addMember 3,.addLoot oneItem,.groupLoot threeMembers 0]

end Example

theorem votes_counted_once_three :
    let as := rollStarted ++ [.countRollVote quietWorld 1 0 1,.countRollVote quietWorld 2 0 2,
      .removeMember ⟨quietWorld,.leave,2,false⟩ 3]
    let s := Run.exec step start as
    (∀ r ∈ s.looting.rollId, r.totalNeed = r.tally isNeed ∧ r.totalGreed = r.tally isGreed ∧
      r.totalPass = r.tally isPass ∧ r.Offered) ∧
    (∀ w playerGUID guid choice, s.VoteOk (.countRollVote w playerGUID guid choice) →
      ∀ r ∈ s.looting.rollId,
        (∀ r' ∈ (s.looting.countRollVote w playerGUID guid choice).rollId,
          r'.itemGUID ≠ r.itemGUID) → (r.vote playerGUID choice).Complete) ∧
    (∀ w guid, (s.looting.removeVotes w guid).rollId.map Roll.itemGUID =
      s.looting.rollId.map Roll.itemGUID) := by
  refine votes_counted_once _ ⟨trivial,trivial,trivial,trivial,?_,?_,?_,trivial,trivial⟩
  · change threeMembers.members.val.length < 256
    decide
  · unfold VoteOk
    dsimp only
    unfold FirstVote
    decide +kernel
  · unfold VoteOk
    dsimp only
    unfold FirstVote
    decide +kernel

/-- A player of three votes twice, and then once more: first the vote counts twice, then the
roll is decided though the others have not voted. -/
theorem repeated_vote_counts :
    let s := Run.exec step start
      (rollStarted ++ [.countRollVote quietWorld 1 0 1,.countRollVote quietWorld 1 0 1])
    s.looting.rollId.map (fun r => (r.totalNeed,r.tally isNeed,r.totalPlayersRolling)) =
      [(2,1,3)] ∧
      s.looting.rollId.map (fun r => r.playerVote.find? 2) = [some .notEmitedYet] ∧
      (s.step (.countRollVote quietWorld 1 0 1)).looting.rollId.length = 0 := by
  decide +kernel

end Realm

end TrinityCore.Groups
