import Mathlib.Data.List.MinMax
import TrinityCore.Groups.OpenRolls

set_option autoImplicit false

namespace TrinityCore.Groups

open Looting (isNeed isGreed)

namespace Roll

variable {r : Roll} {guid choice : Nat} {eligible : RollVote → Bool}

/-- The numbers cover the recorded votes; they are more when somebody has voted twice. -/
structure Covered (r : Roll) : Prop where
  need : r.tally isNeed ≤ r.totalNeed
  greed : r.tally isGreed ≤ r.totalGreed
  small : r.totalNeed+r.totalGreed ≤ 255

/-- So they stay while the roll is open, since a roll that reaches the number of the players is
decided at once. -/
structure Undecided (r : Roll) : Prop extends r.Covered where
  below : r.totalNeed+r.totalGreed ≤ 254
  rolling : r.totalPlayersRolling < 256

theorem inc_lt (n : Nat) : inc n < 256 := Nat.mod_lt _ (by decide)

theorem dec_lt (n : Nat) : dec n < 256 := Nat.mod_lt _ (by decide)

theorem tally_vote_le {v : RollVote} {n : Nat} (h : r.tally eligible ≤ n) (hn : n < 255) :
    (r.playerVote.insert guid v).values.countP eligible ≤ if eligible v then inc n else n := by
  have hcount := tally_insert r guid v eligible
  split_ifs at hcount ⊢
  · rw [inc_eq (by omega)]
    omega
  · omega

theorem covered_vote (h : r.Undecided) (guid choice : Nat) : (r.vote guid choice).Covered := by
  have hbelow := h.below
  cases hchoice : choiceVote choice with
  | none => exact vote_of_none hchoice ▸ h.toCovered
  | some v =>
    rw [vote_eq hchoice]
    refine ⟨tally_vote_le h.need (by omega),tally_vote_le h.greed (by omega),?_⟩
    -- a vote is of one kind
    have hone : ¬ (isNeed v = true ∧ isGreed v = true) := by cases v <;> simp [isNeed,isGreed]
    dsimp only
    split_ifs with hneed hgreed
    · exact absurd ⟨hneed,hgreed⟩ hone
    · rw [inc_eq (by omega)]
      omega
    · rw [inc_eq (by omega)]
      omega
    · omega

theorem undecided_vote (h : r.Undecided) (hopen : (r.vote guid choice).allCounted = false) :
    (r.vote guid choice).Undecided := by
  have hrolling : (r.vote guid choice).totalPlayersRolling < 256 := by
    cases hchoice : choiceVote choice with
    | none => exact vote_of_none hchoice ▸ h.rolling
    | some v => exact vote_eq hchoice ▸ h.rolling
  simp only [allCounted,decide_eq_false_iff_not] at hopen
  exact ⟨covered_vote h guid choice,by omega,hrolling⟩

theorem tally_erase_le {v : RollVote} {n : Nat} (hv : r.playerVote.find? guid = some v)
    (h : r.tally eligible ≤ n) (hn : n < 256) :
    (r.playerVote.erase guid).values.countP eligible ≤ (if eligible v then dec n else n) ∧
      (if eligible v then dec n else n) ≤ n := by
  have hcount := OrderedMap.countP_erase (m := r.playerVote) (k := guid) eligible
  unfold tally at h
  rw [hv,Option.elim_some] at hcount
  split_ifs at hcount ⊢
  · rw [dec_eq (by omega) hn]
    omega
  · omega

theorem undecided_left (h : r.Undecided) (guid : Nat) : (r.left guid).Undecided := by
  unfold left
  split
  · exact h
  · rename_i v hv
    have hbelow := h.below
    obtain ⟨hneed,hneed'⟩ := tally_erase_le hv h.need (by omega)
    obtain ⟨hgreed,hgreed'⟩ := tally_erase_le hv h.greed (by omega)
    have hsum : (r.withdraw guid v).totalNeed+(r.withdraw guid v).totalGreed ≤
        r.totalNeed+r.totalGreed := by
      simp only [isNeed,isGreed,decide_eq_true_eq] at hneed' hgreed'
      simp only [withdraw]
      omega
    refine ⟨⟨?_,?_,by omega⟩,by omega,?_⟩
    · simpa [withdraw,tally,isNeed] using hneed
    · simpa [withdraw,tally,isGreed] using hgreed
    · simp only [withdraw]
      split_ifs
      · exact h.rolling
      · exact dec_lt _

theorem undecided_join (h : r.Undecided) (hneed : r.totalNeed = 0) (hgreed : r.totalGreed = 0)
    (guid : Nat) (passes : Bool) : (r.join guid passes).Undecided ∧
      (r.join guid passes).totalNeed = 0 ∧ (r.join guid passes).totalGreed = 0 := by
  have htally : ∀ v p, p v = false → r.tally p ≤ 0 →
      (r.playerVote.insert guid v).values.countP p ≤ 0 := by
    intro v p hv hle
    have hcount := tally_insert r guid v p
    rw [hv] at hcount
    simp only [Bool.false_eq_true,if_false] at hcount
    omega
  have hneedle := hneed ▸ h.need
  have hgreedle := hgreed ▸ h.greed
  unfold join
  split_ifs
  · exact ⟨⟨⟨hneed ▸ htally .pass isNeed rfl hneedle,hgreed ▸ htally .pass isGreed rfl hgreedle,
      h.small⟩,h.below,inc_lt _⟩,hneed,hgreed⟩
  · exact ⟨⟨⟨hneed ▸ htally .notEmitedYet isNeed rfl hneedle,
      hgreed ▸ htally .notEmitedYet isGreed rfl hgreedle,h.small⟩,h.below,inc_lt _⟩,hneed,hgreed⟩

theorem lasting_undecided : Lasting Undecided where
  start p s item loot slot autoPass := by
    have hnew : (new s.nextItemGUID item loot slot).Undecided ∧
        (new s.nextItemGUID item loot slot).totalNeed = 0 ∧
        (new s.nextItemGUID item loot slot).totalGreed = 0 :=
      ⟨⟨⟨Nat.le_refl 0,Nat.le_refl 0,by simp [new]⟩,by simp [new],by simp [new]⟩,rfl,rfl⟩
    refine (List.foldlRecOn (motive := fun r : Roll =>
      r.Undecided ∧ r.totalNeed = 0 ∧ r.totalGreed = 0) _ _ hnew ?_).1
    rintro r ⟨h,hneed,hgreed⟩ guid -
    exact undecided_join h hneed hgreed guid _
  mask r mask h := ⟨⟨h.need,h.greed,h.small⟩,h.below,h.rolling⟩
  vote r guid choice h hopen := undecided_vote h hopen
  left r guid h := undecided_left h guid

end Roll

namespace Looting

variable {s : Looting} {w : World} {allowedMap : Option Nat} {r : Roll} {eligible : RollVote → Bool}
  {guid : Nat} {v : RollVote}

section Winner

variable (w allowedMap r eligible)

def voters : List (Nat × RollVote) :=
  r.playerVote.entries.filter fun e => eligible e.2 && isPresent w allowedMap e.1

def gone : Nat :=
  r.playerVote.entries.countP fun e => eligible e.2 && !isPresent w allowedMap e.1

def AnyPresent : Prop :=
  ∃ guid v, r.playerVote.find? guid = some v ∧ eligible v ∧ isPresent w allowedMap guid

/-- A present voter of a kind, and no other present one of the kind has a greater number. -/
structure Highest (guid : Nat) (v : RollVote) : Prop where
  voted : r.playerVote.find? guid = some v
  ofKind : eligible v
  present : isPresent w allowedMap guid
  highest : ∀ k v', r.playerVote.find? k = some v' → eligible v' → isPresent w allowedMap k →
    w.urand r.itemGUID k ≤ w.urand r.itemGUID guid

structure First (guid : Nat) (v : RollVote) : Prop extends Highest w allowedMap r eligible guid v where
  first : ∀ k v', r.playerVote.find? k = some v' → eligible v' → isPresent w allowedMap k →
    k < guid → w.urand r.itemGUID k < w.urand r.itemGUID guid

inductive Wins : Option (Nat × RollVote) → Prop where
  | need {guid : Nat} {v : RollVote} : Highest w allowedMap r isNeed guid v → Wins (some (guid,v))
  | greed {guid : Nat} {v : RollVote} : ¬ AnyPresent w allowedMap r isNeed →
      Highest w allowedMap r isGreed guid v → Wins (some (guid,v))
  | nobody : ¬ AnyPresent w allowedMap r isNeed → ¬ AnyPresent w allowedMap r isGreed → Wins none

/-- The first voter with the greatest number. -/
def best : Option (Nat × RollVote) :=
  (voters w allowedMap r eligible).argmax fun e => w.urand r.itemGUID e.1

def winner : Option (Nat × RollVote) :=
  best w allowedMap r isNeed <|> best w allowedMap r isGreed

end Winner

theorem mem_voters : (guid,v) ∈ voters w allowedMap r eligible ↔
    r.playerVote.find? guid = some v ∧ eligible v ∧ isPresent w allowedMap guid := by
  rw [voters,List.mem_filter,OrderedMap.mem_entries,Bool.and_eq_true]

theorem anyPresent_iff : AnyPresent w allowedMap r eligible ↔ best w allowedMap r eligible ≠ none := by
  rw [best,Ne,List.argmax_eq_none,List.eq_nil_iff_forall_not_mem]
  push Not
  constructor
  · intro ⟨guid,v,h⟩
    exact ⟨(guid,v),mem_voters.mpr h⟩
  · intro ⟨⟨guid,v⟩,h⟩
    exact ⟨guid,v,mem_voters.mp h⟩

theorem le_of_idxOf_le {α : Type} [DecidableEq α] (key : α → Nat) {es : List α}
    (hsorted : es.Pairwise fun a b => key a < key b) {a b : α} (ha : a ∈ es) (hb : b ∈ es)
    (h : es.idxOf a ≤ es.idxOf b) : key a ≤ key b := by
  have halt := List.idxOf_lt_length_iff.mpr ha
  have hblt := List.idxOf_lt_length_iff.mpr hb
  rcases Nat.eq_or_lt_of_le h with heq | hlt
  · rw [(List.idxOf_inj ha).mp heq]
  · have hpair := List.pairwise_iff_getElem.mp hsorted _ _ halt hblt hlt
    rw [List.getElem_idxOf,List.getElem_idxOf] at hpair
    exact hpair.le

theorem best_first (h : best w allowedMap r eligible = some (guid,v)) :
    First w allowedMap r eligible guid v := by
  obtain ⟨hmem,hmax,hidx⟩ := List.argmax_eq_some_iff.mp h
  obtain ⟨hv,heligible,hpresent⟩ := mem_voters.mp hmem
  refine ⟨⟨hv,heligible,hpresent,fun k v' hk he hp => hmax (k,v') (mem_voters.mpr ⟨hk,he,hp⟩)⟩,
    fun k v' hk he hp hlt => ?_⟩
  have hk' := mem_voters.mpr ⟨hk,he,hp⟩
  refine lt_of_not_ge fun hge => ?_
  have hle := le_of_idxOf_le Prod.fst (r.playerVote.sorted.sublist List.filter_sublist) hmem hk'
    (hidx (k,v') hk' hge)
  exact Nat.not_le.mpr hlt hle

theorem first_unique {guid' : Nat} {v' : RollVote} (h : First w allowedMap r eligible guid v)
    (h' : First w allowedMap r eligible guid' v') : guid = guid' ∧ v = v' := by
  have hguid : guid = guid' := by
    rcases Nat.lt_trichotomy guid guid' with hlt | heq | hlt
    · exact absurd (h.highest _ _ h'.voted h'.ofKind h'.present)
        (not_le.mpr (h'.first _ _ h.voted h.ofKind h.present hlt))
    · exact heq
    · exact absurd (h'.highest _ _ h.voted h.ofKind h.present)
        (not_le.mpr (h.first _ _ h'.voted h'.ofKind h'.present hlt))
  subst hguid
  exact ⟨rfl,Option.some.inj (h.voted.symm.trans h'.voted)⟩

theorem wins_winner (w : World) (allowedMap : Option Nat) (r : Roll) : Wins w allowedMap r (winner w allowedMap r) := by
  unfold winner
  cases hneed : best w allowedMap r isNeed with
  | some e => exact .need (best_first hneed).toHighest
  | none =>
    have hnone : ¬ AnyPresent w allowedMap r isNeed := fun h => anyPresent_iff.mp h hneed
    cases hgreed : best w allowedMap r isGreed with
    | some e => exact .greed hnone (best_first hgreed).toHighest
    | none => exact .nobody hnone fun h => anyPresent_iff.mp h hgreed

theorem foldl_next (es : List (Nat × RollVote)) (total : Nat) :
    es.foldl (RollOff.next w allowedMap r.itemGUID eligible) ⟨0,0,.notValid,total⟩ =
      match (es.filter fun e => eligible e.2 && isPresent w allowedMap e.1).argmax
        fun e => w.urand r.itemGUID e.1 with
      | none => ⟨0,0,.notValid,dec^[es.countP fun e => eligible e.2 && !isPresent w allowedMap e.1] total⟩
      | some e => ⟨e.1,(w.urand r.itemGUID e.1).val+1,e.2,
          dec^[es.countP fun e => eligible e.2 && !isPresent w allowedMap e.1] total⟩ := by
  induction es using List.reverseRecOn with
  | nil => rfl
  | append_singleton es e ih =>
    rw [List.foldl_append,ih,List.filter_append,List.countP_append]
    simp only [List.foldl_cons,List.foldl_nil,RollOff.next]
    by_cases heligible : eligible e.2
    · by_cases hpresent : isPresent w allowedMap e.1
      · simp only [heligible,hpresent,List.filter_cons,List.filter_nil,Bool.and_self,if_true,
          List.countP_singleton,Bool.not_true,Bool.and_false,Bool.false_eq_true,if_false,Nat.add_zero,
          List.argmax_concat]
        cases hmax : (es.filter fun e => eligible e.2 && isPresent w allowedMap e.1).argmax
            fun e => w.urand r.itemGUID e.1 with
        | none => simp
        | some best =>
          simp only [Nat.add_lt_add_iff_right,Fin.val_fin_lt]
          split_ifs <;> rfl
      · simp only [heligible,hpresent,List.filter_cons,List.filter_nil,Bool.and_false,Bool.false_eq_true,
          if_false,if_true,List.countP_singleton,Bool.not_false,Bool.and_self,List.append_nil,
          Function.iterate_succ_apply']
        split <;> rfl
    · simp only [heligible,Bool.false_and,List.filter_cons,List.filter_nil,Bool.false_eq_true,if_false,
        List.countP_singleton,Nat.add_zero,List.append_nil]

section Decide

variable {total : Nat}

theorem iterate_dec {k n : Nat} (h : k ≤ n) (hn : n < 256) : dec^[k] n = n-k := by
  induction k with
  | zero => rfl
  | succ k ih =>
    rw [Function.iterate_succ_apply',ih (by omega),dec_eq (by omega) (by omega)]
    omega

theorem voters_add_gone (w : World) (allowedMap : Option Nat) (r : Roll)
    (eligible : RollVote → Bool) : (voters w allowedMap r eligible).length+gone w allowedMap r eligible =
    r.tally eligible := by
  unfold voters gone Roll.tally OrderedMap.values
  induction r.playerVote.entries with
  | nil => rfl
  | cons e es ih =>
    rw [List.filter_cons,List.countP_cons,List.map_cons,List.countP_cons]
    cases heligible : eligible e.2 with
    | false => simpa [heligible] using ih
    | true =>
      cases hpresent : isPresent w allowedMap e.1 with
      | false =>
        simp only [Bool.true_and,Bool.false_eq_true,if_false,Bool.not_false,if_true]
        omega
      | true =>
        simp only [Bool.true_and,if_true,List.length_cons,Bool.not_true,Bool.false_eq_true,if_false]
        omega

/-- The voters that `SendLootRollWon` names for a kind, and how many of the kind are left. -/
def settleWon (w : World) (allowedMap : Option Nat) (r : Roll) (eligible : RollVote → Bool)
    (total : Nat) : List RollOff × Nat :=
  if r.playerVote.entries = [] then ([],total)
  else
    let o := rollOff w allowedMap r eligible total
    if o.maxguid ≠ 0 then ([o],o.total) else ([],0)

theorem settle_none (s : Looting) (total : Nat) (hne : r.playerVote.entries ≠ []) (hbest : best w allowedMap r eligible = none) :
    settle w allowedMap s r eligible total = (s,0) ∧
      settleWon w allowedMap r eligible total = ([],0) := by
  have hoff : (rollOff w allowedMap r eligible total).maxguid = 0 := by
    unfold rollOff
    rw [foldl_next]
    unfold best voters at hbest
    rw [hbest]
  unfold settle settleWon
  rw [if_neg hne,if_neg hne]
  exact ⟨if_neg (not_not.mpr hoff),if_neg (not_not.mpr hoff)⟩

/-- Otherwise the first voter with the greatest number wins, and voters are left. -/
theorem settle_some (hbest : best w allowedMap r eligible = some (guid,v))
    (htally : r.tally eligible ≤ total) (htotal : total < 256) :
    ∃ o, settle w allowedMap s r eligible total = (s.award w r o,o.total) ∧
      settleWon w allowedMap r eligible total = ([o],o.total) ∧
      o.maxguid = guid ∧ o.rollvote = v ∧ o.total ≠ 0 := by
  have hfirst := best_first hbest
  have hmem := mem_voters.mpr ⟨hfirst.voted,hfirst.ofKind,hfirst.present⟩
  have hguid : guid ≠ 0 := by
    rintro rfl
    have hpresent := hfirst.present
    rw [isPresent,w.findPlayer_zero] at hpresent
    exact Bool.false_ne_true hpresent
  have hoff : rollOff w allowedMap r eligible total = ⟨guid,(w.urand r.itemGUID guid).val+1,v,
      dec^[gone w allowedMap r eligible] total⟩ := by
    unfold rollOff
    rw [foldl_next]
    unfold best voters at hbest
    rw [hbest]
    rfl
  have hleft : dec^[gone w allowedMap r eligible] total ≠ 0 := by
    have hsum := voters_add_gone w allowedMap r eligible
    have hpos := List.length_pos_of_mem hmem
    rw [iterate_dec (by omega) htotal]
    omega
  have hne : r.playerVote.entries ≠ [] := List.ne_nil_of_mem (List.mem_of_mem_filter hmem)
  refine ⟨⟨guid,(w.urand r.itemGUID guid).val+1,v,dec^[gone w allowedMap r eligible] total⟩,
    ?_,?_,rfl,rfl,hleft⟩
  · unfold settle
    rw [if_neg hne,hoff]
    exact if_pos hguid
  · unfold settleWon
    rw [if_neg hne,hoff]
    exact if_pos hguid

def decideRoll (w : World) (allowedMap : Option Nat) (s : Looting) (r : Roll) : Looting :=
  let need := settleNeed w allowedMap s r
  let greed := settleGreed w allowedMap need.1 r need.2
  if need.2 = 0 ∧ greed.2 = 0 then greed.1.unblockItem r else greed.1

theorem countTheRoll_eq (w : World) (allowedMap : Option Nat) {i : Nat} (hr : s.rollId[i]? = some r) (hloot : (s.loots r.loot).isSome) :
    s.countTheRoll w allowedMap i =
      decideRoll w allowedMap { s with rollId := s.rollId.eraseIdx i } r := by
  have hvalid : (s.loots r.loot).isNone = false := by simpa using hloot
  unfold countTheRoll decideRoll
  simp only [hr,hvalid,Bool.false_eq_true,if_false]

def won (w : World) (allowedMap : Option Nat) (r : Roll) : List RollOff :=
  let need := if 0 < r.totalNeed then settleWon w allowedMap r isNeed r.totalNeed
    else ([],r.totalNeed)
  let greed := if need.2 = 0 ∧ 0 < r.totalGreed then settleWon w allowedMap r isGreed r.totalGreed
    else ([],r.totalGreed)
  need.1 ++ greed.1

end Decide

section Outcome

variable {item : LootItem}

/-- What `AutoStoreLoot` puts into the bags; a material that does not fit is skipped. -/
def autoStoreLoot (w : World) (itemGUID : Nat) : List (Nat × Nat) :=
  ((w.materials itemGUID).zipIdx.filter fun e => w.canStoreMaterial itemGUID e.2).map Prod.fst

def received (w : World) (r : Roll) (item : LootItem) (guid : Nat) (v : RollVote) :
    List (Nat × Nat) :=
  if v = .disenchant then
    -- the bags are tried with the item, though the materials are what is stored
    if w.canStoreNewItem r.itemGUID guid r.itemid item.count then autoStoreLoot w r.itemGUID
    else w.materials r.itemGUID
  else if w.canStoreNewItem r.itemGUID guid r.itemid item.count then [(r.itemid,item.count)]
  else []

def Received (w : World) (r : Roll) (item : LootItem) (guid : Nat) (v : RollVote) : Prop :=
  received w r item guid v =
    if v = .disenchant then w.materials r.itemGUID else [(r.itemid,item.count)]

instance {v : RollVote} : Decidable (Received w r item guid v) := inferInstanceAs (Decidable (_ = _))

/-- One winner or none is named, as it should be, and the item goes with what the winner gets. -/
def Resolved (w : World) (allowedMap : Option Nat) (s : Looting) (r : Roll) (item : LootItem) : Prop :=
  ∃ x, Wins w allowedMap r x ∧ (won w allowedMap r).map (fun o => (o.maxguid,o.rollvote)) = x.toList ∧
    decideRoll w allowedMap s r = match x with
      | none => s.unblockItem r
      | some (guid,v) => if Received w r item guid v then s.giveItem r else s.unblockItem r

/-- The votes are not all gone with their numbers left behind, and the bags of a winner who is to
disenchant do not take the item without the materials. -/
structure Resolvable (w : World) (allowedMap : Option Nat) (r : Roll) (item : LootItem) : Prop where
  votes : r.playerVote.entries = [] → item.isBlocked → r.totalNeed = 0 ∧ r.totalGreed = 0
  stored : ∀ guid, ¬ AnyPresent w allowedMap r isNeed →
    First w allowedMap r isGreed guid .disenchant →
    w.canStoreNewItem r.itemGUID guid r.itemid item.count →
    ∀ i < (w.materials r.itemGUID).length, w.canStoreMaterial r.itemGUID i

theorem autoStoreLoot_iff {itemGUID : Nat} : autoStoreLoot w itemGUID = w.materials itemGUID ↔
    ∀ i < (w.materials itemGUID).length, w.canStoreMaterial itemGUID i := by
  unfold autoStoreLoot
  constructor
  · intro h i hi
    have hlength := congrArg List.length h
    rw [List.length_map,← List.length_zipIdx (l := w.materials itemGUID) (i := 0),
      List.length_filter_eq_length_iff] at hlength
    exact hlength ((w.materials itemGUID)[i],i) (by simp [List.mk_mem_zipIdx_iff_getElem?,hi])
  · intro h
    rw [List.filter_eq_self.mpr,List.zipIdx_map_fst]
    intro e he
    obtain ⟨hlt,-⟩ := List.getElem?_eq_some_iff.mp (List.mk_mem_zipIdx_iff_getElem?.mp he)
    exact h e.2 hlt

theorem received_disenchant : Received w r item guid .disenchant ↔
    (w.canStoreNewItem r.itemGUID guid r.itemid item.count →
      ∀ i < (w.materials r.itemGUID).length, w.canStoreMaterial r.itemGUID i) := by
  unfold Received received
  rw [if_pos rfl,if_pos rfl,← autoStoreLoot_iff]
  split_ifs with hfits
  · simp [hfits]
  · simp [hfits]

theorem received_other (hv : v ≠ .disenchant) : Received w r item guid v ↔
    w.canStoreNewItem r.itemGUID guid r.itemid item.count := by
  unfold Received received
  rw [if_neg hv,if_neg hv]
  split_ifs with hfits
  · simp [hfits]
  · simp [hfits]

theorem itemAt_modifyAt (l : Loot) (slot : Nat) (f : LootItem → LootItem) :
    (l.modifyAt slot f).itemAt slot = (l.itemAt slot).map f := by
  unfold Loot.modifyAt Loot.itemAt
  by_cases hquest : l.items.length ≤ slot
  · rw [if_pos hquest]
    simp only [if_pos hquest,List.getElem?_modify_eq]
    rfl
  · rw [if_neg hquest]
    simp only [List.length_modify,if_neg hquest,List.getElem?_modify_eq]
    rfl

theorem modifyAt_eq_self {l : Loot} {slot : Nat} {f : LootItem → LootItem}
    (h : l.itemAt slot = some item) (hf : f item = item) : l.modifyAt slot f = l := by
  have hsame : ∀ {is : List LootItem} {i : Nat}, is[i]? = some item → is.modify i f = is := by
    intro is i hi
    obtain ⟨hlt,heq⟩ := List.getElem?_eq_some_iff.mp hi
    rw [List.modify_eq_set_getElem?,hi]
    change is.set i (f item) = is
    rw [hf,← heq,List.set_getElem_self hlt]
  unfold Loot.itemAt at h
  unfold Loot.modifyAt
  split_ifs at h ⊢
  · rw [hsame h]
  · rw [hsame h]

variable (hitem : (s.loots r.loot).bind (·.itemAt r.itemSlot) = some item)
include hitem

theorem unblockItem_eq_self : s.unblockItem r = s ↔ item.isBlocked = false := by
  obtain ⟨l,hl,hat⟩ := Option.bind_eq_some_iff.mp hitem
  constructor
  · intro h
    have hloot := congrFun (congrArg Looting.loots h) r.loot
    simp only [unblockItem,modifyLoot,Function.update_self,hl,Option.map_some,Option.some.injEq] at hloot
    have hitems := itemAt_modifyAt l r.itemSlot fun item => { item with isBlocked := false }
    rw [hloot,hat,Option.map_some,Option.some.injEq] at hitems
    rw [hitems]
  · intro h
    have hsame : ({ item with isBlocked := false } : LootItem) = item := by rw [← h]
    unfold unblockItem modifyLoot
    rw [hl,Option.map_some,modifyAt_eq_self hat hsame,← hl,Function.update_eq_self]

theorem giveItem_ne_unblockItem : s.giveItem r ≠ s.unblockItem r := by
  obtain ⟨l,hl,-⟩ := Option.bind_eq_some_iff.mp hitem
  intro h
  have hloot := congrFun (congrArg Looting.loots h) r.loot
  simp only [giveItem,unblockItem,modifyLoot,Function.update_self,hl,Option.map_some,
    Option.some.injEq] at hloot
  have hcount := congrArg Loot.unlootedCount hloot
  have hkeep : ∀ f, (l.modifyAt r.itemSlot f).unlootedCount = l.unlootedCount := by
    intro f
    unfold Loot.modifyAt
    split_ifs <;> rfl
  rw [hkeep] at hcount
  simp only [dec] at hcount
  omega

theorem award_eq {o : RollOff} (hpresent : isPresent w allowedMap o.maxguid) :
    s.award w r o = if o.rollvote = .disenchant ∨
        w.canStoreNewItem r.itemGUID o.maxguid r.itemid item.count then s.giveItem r
      else s.unblockItem r := by
  have hconnected : w.isConnected o.maxguid := by
    unfold isPresent at hpresent
    cases hmap : w.findPlayer o.maxguid with
    | none =>
      rw [hmap] at hpresent
      exact absurd hpresent Bool.false_ne_true
    | some map => exact w.connected_of_find _ map hmap
  unfold award
  simp only [if_pos hconnected,hitem]
  split_ifs <;> first | rfl | tauto

end Outcome

section Resolve

variable {item : LootItem}

theorem decideRoll_empty (w : World) (allowedMap : Option Nat) (s : Looting) (hempty : r.playerVote.entries = []) :
    won w allowedMap r = [] ∧ winner w allowedMap r = none ∧
      decideRoll w allowedMap s r =
        if r.totalNeed = 0 ∧ r.totalGreed = 0 then s.unblockItem r else s := by
  have hneed : settleNeed w allowedMap s r = (s,r.totalNeed) := by
    unfold settleNeed settle
    rw [if_pos hempty,ite_self]
  have hgreed : settleGreed w allowedMap s r r.totalNeed = (s,r.totalGreed) := by
    unfold settleGreed settle
    rw [if_pos hempty,ite_self]
  refine ⟨?_,?_,?_⟩
  · simp [won,settleWon,hempty]
  · simp [winner,best,voters,hempty]
  · simp only [decideRoll,hneed,hgreed]

theorem tally_pos (hbest : best w allowedMap r eligible = some (guid,v)) : 0 < r.tally eligible := by
  have hfirst := best_first hbest
  have hmem := mem_voters.mpr ⟨hfirst.voted,hfirst.ofKind,hfirst.present⟩
  have hsum := voters_add_gone w allowedMap r eligible
  have hlength := List.length_pos_of_mem hmem
  omega

theorem decideRoll_need (hcovered : r.Covered) (hbest : best w allowedMap r isNeed = some (guid,v)) :
    ∃ o, won w allowedMap r = [o] ∧ o.maxguid = guid ∧ o.rollvote = v ∧
      decideRoll w allowedMap s r = s.award w r o := by
  have hsmall := hcovered.small
  have hpos : 0 < r.totalNeed := (tally_pos hbest).trans_le hcovered.need
  obtain ⟨o,hsettle,hwon,hguid,hv,hleft⟩ := settle_some (s := s) hbest hcovered.need (by omega)
  refine ⟨o,?_,hguid,hv,?_⟩
  · simp only [won,if_pos hpos,hwon,hleft,false_and,if_false,List.append_nil]
  · simp only [decideRoll,settleNeed,if_pos hpos,hsettle,settleGreed,hleft,false_and,if_false]

theorem decideRoll_greed (hcovered : r.Covered) (hne : r.playerVote.entries ≠ [])
    (hnone : best w allowedMap r isNeed = none) (hbest : best w allowedMap r isGreed = some (guid,v)) :
    ∃ o, won w allowedMap r = [o] ∧ o.maxguid = guid ∧ o.rollvote = v ∧
      decideRoll w allowedMap s r = s.award w r o := by
  have hsmall := hcovered.small
  have hpos : 0 < r.totalGreed := (tally_pos hbest).trans_le hcovered.greed
  obtain ⟨hsettle,hwon⟩ := settle_none s r.totalNeed hne hnone
  obtain ⟨o,hsettle',hwon',hguid,hv,hleft⟩ := settle_some (s := s) hbest hcovered.greed (by omega)
  refine ⟨o,?_,hguid,hv,?_⟩
  · by_cases hneed : 0 < r.totalNeed
    · simp only [won,if_pos hneed,hwon,hwon',if_pos hpos,true_and,List.nil_append]
    · have hzero : r.totalNeed = 0 := by omega
      simp only [won,hzero,lt_self_iff_false,if_false,hwon',if_pos hpos,true_and,List.nil_append]
  · by_cases hneed : 0 < r.totalNeed
    · simp only [decideRoll,settleNeed,if_pos hneed,hsettle,settleGreed,true_and,if_pos hpos,hsettle',
        hleft,if_false]
    · have hzero : r.totalNeed = 0 := by omega
      simp only [decideRoll,settleNeed,hzero,lt_self_iff_false,if_false,settleGreed,true_and,
        if_pos hpos,hsettle',hleft]

theorem decideRoll_none (hne : r.playerVote.entries ≠ [])
    (hneed : best w allowedMap r isNeed = none) (hgreed : best w allowedMap r isGreed = none) :
    won w allowedMap r = [] ∧ decideRoll w allowedMap s r = s.unblockItem r := by
  have hneed' : settleNeed w allowedMap s r = (s,0) := by
    unfold settleNeed
    split_ifs with hpos
    · exact (settle_none s _ hne hneed).1
    · rw [Nat.eq_zero_of_not_pos hpos]
  have hgreed' : settleGreed w allowedMap s r 0 = (s,0) := by
    unfold settleGreed
    split_ifs with hpos
    · exact (settle_none s _ hne hgreed).1
    · rw [Nat.eq_zero_of_not_pos fun hlt => hpos ⟨rfl,hlt⟩]
  refine ⟨?_,by simp only [decideRoll,hneed',hgreed',and_self,if_true]⟩
  have hwon := fun total => (settle_none s total hne hneed).2
  have hwon' := fun total => (settle_none s total hne hgreed).2
  unfold won
  dsimp only
  split_ifs <;> simp only [hwon,hwon',List.append_nil]

section Item

variable (hitem : (s.loots r.loot).bind (·.itemAt r.itemSlot) = some item)
include hitem

theorem resolved_empty (hempty : r.playerVote.entries = []) :
    Resolved w allowedMap s r item ↔ Resolvable w allowedMap r item := by
  obtain ⟨hwon,hwinner,hdecide⟩ := decideRoll_empty w allowedMap s hempty
  have hnobody : ∀ k v', r.playerVote.find? k ≠ some v' := by
    intro k v' hk
    have hmem := OrderedMap.mem_entries.mpr hk
    rw [hempty] at hmem
    exact List.not_mem_nil hmem
  constructor
  · intro ⟨x,_,hx,hresult⟩
    have hnone : x = none := by
      rw [hwon] at hx
      exact Option.toList_eq_nil_iff.mp hx.symm
    subst hnone
    refine ⟨fun _ hblocked => ?_,fun k _ hk => absurd hk.voted (hnobody k _)⟩
    by_contra htotals
    rw [hdecide,if_neg htotals] at hresult
    have hfree := (unblockItem_eq_self hitem).mp hresult.symm
    exact Bool.false_ne_true (hfree.symm.trans hblocked)
  · intro h
    refine ⟨none,hwinner ▸ wins_winner w allowedMap r,by rw [hwon]; rfl,?_⟩
    rw [hdecide]
    split_ifs with htotals
    · rfl
    · refine ((unblockItem_eq_self hitem).mpr ?_).symm
      exact Bool.eq_false_iff.mpr fun hblocked => htotals (h.votes hempty hblocked)

theorem resolved_some {x : Nat × RollVote} {o : RollOff} (hwins : Wins w allowedMap r (some x))
    (hpresent : isPresent w allowedMap x.1) (hwon : won w allowedMap r = [o]) (hguid : o.maxguid = x.1)
    (hv : o.rollvote = x.2) (hdecide : decideRoll w allowedMap s r = s.award w r o) :
    Resolved w allowedMap s r item ↔ (x.2 = .disenchant → Received w r item x.1 .disenchant) := by
  obtain ⟨guid,v⟩ := x
  rw [award_eq hitem (by rwa [hguid] : isPresent w allowedMap o.maxguid),hguid,hv] at hdecide
  constructor
  · rintro ⟨x,-,hx,hresult⟩ rfl
    have hsome : x = some (guid,.disenchant) := by
      rw [hwon,List.map_singleton,hguid,hv] at hx
      exact Option.toList_eq_singleton_iff.mp hx.symm
    subst hsome
    by_contra hlost
    rw [hdecide,if_pos (.inl rfl)] at hresult
    dsimp only at hresult
    rw [if_neg hlost] at hresult
    exact giveItem_ne_unblockItem hitem hresult
  · intro hall
    refine ⟨some (guid,v),hwins,by rw [hwon,List.map_singleton,hguid,hv]; rfl,?_⟩
    rw [hdecide]
    dsimp only
    by_cases hdis : v = .disenchant
    · subst hdis
      rw [if_pos (.inl rfl),if_pos (hall rfl)]
    · simp only [hdis,false_or,received_other hdis]

theorem resolved_iff_of_covered (hcovered : r.Covered) :
    Resolved w allowedMap s r item ↔ Resolvable w allowedMap r item := by
  by_cases hne : r.playerVote.entries = []
  · exact resolved_empty hitem hne
  have hwins := wins_winner w allowedMap r
  cases hneed : best w allowedMap r isNeed with
  | some x =>
    have hfirst := best_first hneed
    obtain ⟨o,hwon,hguid,hv,hdecide⟩ := decideRoll_need (s := s) hcovered hneed
    rw [winner,hneed] at hwins
    rw [resolved_some hitem hwins hfirst.present hwon hguid hv hdecide]
    have hkind : x.2 ≠ .disenchant := by
      intro hdis
      have hofKind := hfirst.ofKind
      simp [hdis,isNeed] at hofKind
    have hany : AnyPresent w allowedMap r isNeed := anyPresent_iff.mpr (by simp [hneed])
    exact ⟨fun _ => ⟨fun hempty => absurd hempty hne,fun _ hno => absurd hany hno⟩,
      fun _ hdis => absurd hdis hkind⟩
  | none =>
    have hno : ¬ AnyPresent w allowedMap r isNeed := fun hany => anyPresent_iff.mp hany hneed
    cases hgreed : best w allowedMap r isGreed with
    | some x =>
      have hfirst := best_first hgreed
      obtain ⟨o,hwon,hguid,hv,hdecide⟩ := decideRoll_greed (s := s) hcovered hne hneed hgreed
      rw [winner,hneed,hgreed] at hwins
      rw [resolved_some hitem hwins hfirst.present hwon hguid hv hdecide]
      constructor
      · intro hall
        refine ⟨fun hempty => absurd hempty hne,fun k _ hk => ?_⟩
        obtain ⟨hk',hv'⟩ := first_unique hfirst hk
        exact hk' ▸ received_disenchant.mp (hall hv')
      · intro h hdis
        exact received_disenchant.mpr (h.stored x.1 hno (hdis ▸ hfirst))
    | none =>
      obtain ⟨hwon,hdecide⟩ := decideRoll_none (s := s) hne hneed hgreed
      rw [winner,hneed,hgreed] at hwins
      refine ⟨fun _ => ⟨fun hempty => absurd hempty hne,fun k _ hk => ?_⟩,
        fun _ => ⟨none,hwins,by rw [hwon]; rfl,hdecide⟩⟩
      exact absurd hgreed (anyPresent_iff.mp ⟨k,_,hk.voted,hk.ofKind,hk.present⟩)

end Item

end Resolve

end Looting

end TrinityCore.Groups
