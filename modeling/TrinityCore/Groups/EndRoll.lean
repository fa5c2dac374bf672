import TrinityCore.Groups.Resolution

set_option autoImplicit false

namespace TrinityCore.Groups

namespace Looting

variable {s : Looting} {w : World} {allowedMap : Option Nat} {r : Roll} {loot : Nat}

section Slots

def shape (l : Loot) : Nat × Nat := (l.items.length,l.questItems.length)

structure SameSlots (s s' : Looting) : Prop where
  nextLoot : s'.nextLoot = s.nextLoot
  shapes : ∀ loot, (s'.loots loot).map shape = (s.loots loot).map shape

theorem SameSlots.refl (s : Looting) : SameSlots s s := ⟨rfl,fun _ => rfl⟩

theorem SameSlots.trans {s₁ s₂ s₃ : Looting} (h : SameSlots s₁ s₂) (h' : SameSlots s₂ s₃) :
    SameSlots s₁ s₃ :=
  ⟨h'.nextLoot.trans h.nextLoot,fun loot => (h'.shapes loot).trans (h.shapes loot)⟩

theorem SameSlots.isSome {s' : Looting} (h : SameSlots s s') :
    (s'.loots loot).isSome = (s.loots loot).isSome := by
  simpa using congrArg Option.isSome (h.shapes loot)

theorem SameSlots.slots {s' : Looting} {l' : Loot} (h : SameSlots s s')
    (hl' : s'.loots loot = some l') : ∃ l, s.loots loot = some l ∧
      l'.items.length = l.items.length ∧ l'.questItems.length = l.questItems.length := by
  have hshape := h.shapes loot
  rw [hl',Option.map_some,eq_comm,Option.map_eq_some_iff] at hshape
  obtain ⟨l,hl,heq⟩ := hshape
  exact ⟨l,hl,(congrArg Prod.fst heq).symm,(congrArg Prod.snd heq).symm⟩

theorem shape_modifyAt (l : Loot) (slot : Nat) (f : LootItem → LootItem) :
    shape (l.modifyAt slot f) = shape l := by
  unfold Loot.modifyAt
  split_ifs <;> simp [shape]

theorem sameSlots_modifyLoot {f : Loot → Loot} (hf : ∀ l, shape (f l) = shape l) :
    SameSlots s (s.modifyLoot loot f) := by
  refine ⟨rfl,fun k => ?_⟩
  by_cases hk : k = loot
  · subst hk
    simp only [modifyLoot,Function.update_self,Option.map_map]
    exact congrArg (fun g => (s.loots k).map g) (funext hf)
  · simp only [modifyLoot,Function.update_of_ne hk]

theorem sameSlots_unblockItem : SameSlots s (s.unblockItem r) :=
  sameSlots_modifyLoot fun l => shape_modifyAt l _ _

theorem sameSlots_giveItem : SameSlots s (s.giveItem r) :=
  sameSlots_modifyLoot fun l => shape_modifyAt l _ _

theorem sameSlots_award (o : RollOff) : SameSlots s (s.award w r o) := by
  unfold award
  split_ifs
  · exact sameSlots_giveItem
  · split
    · exact .refl s
    · split_ifs
      · exact sameSlots_giveItem
      · exact sameSlots_unblockItem
  · exact .refl s

theorem sameSlots_settle (eligible : RollVote → Bool) (total : Nat) :
    SameSlots s (settle w allowedMap s r eligible total).1 := by
  unfold settle
  dsimp only
  split_ifs
  · exact .refl s
  · exact sameSlots_award _
  · exact .refl s

theorem sameSlots_decideRoll (w : World) (allowedMap : Option Nat) (s : Looting) (r : Roll) :
    SameSlots s (decideRoll w allowedMap s r) := by
  have hneed : SameSlots s (settleNeed w allowedMap s r).1 := by
    unfold settleNeed
    split_ifs
    · exact sameSlots_settle _ _
    · exact .refl s
  have hgreed : ∀ s totalNeed, SameSlots s (settleGreed w allowedMap s r totalNeed).1 := by
    intro s totalNeed
    unfold settleGreed
    split_ifs
    · exact sameSlots_settle _ _
    · exact .refl s
  unfold decideRoll
  dsimp only
  split_ifs
  · exact (hneed.trans (hgreed _ _)).trans sameSlots_unblockItem
  · exact hneed.trans (hgreed _ _)

end Slots

section Placed

variable {p : Party}

/-- Every open roll is for an item of its loot, if the loot is still there. -/
structure Placed (s : Looting) : Prop where
  slots : ∀ r ∈ s.rollId, ∀ l, s.loots r.loot = some l →
    r.itemSlot < l.items.length+l.questItems.length
  known : ∀ r ∈ s.rollId, r.loot < s.nextLoot
  loots : ∀ loot, s.nextLoot ≤ loot → s.loots loot = none

theorem Placed.of_sameSlots {s' : Looting} (h : s.Placed) (hsame : SameSlots s s')
    (hrolls : ∀ r' ∈ s'.rollId, ∃ r ∈ s.rollId, r'.loot = r.loot ∧ r'.itemSlot = r.itemSlot) :
    s'.Placed := by
  refine ⟨fun r' hr' l' hl' => ?_,fun r' hr' => ?_,fun loot hloot => ?_⟩
  · obtain ⟨r,hr,hloot,hslot⟩ := hrolls r' hr'
    obtain ⟨l,hl,hitems,hquest⟩ := hsame.slots hl'
    rw [hslot,hitems,hquest]
    exact h.slots r hr l (hloot ▸ hl)
  · obtain ⟨r,hr,hloot,-⟩ := hrolls r' hr'
    rw [hloot,hsame.nextLoot]
    exact h.known r hr
  · rw [hsame.nextLoot] at hloot
    rw [Option.eq_none_iff_forall_ne_some]
    intro l' hl'
    obtain ⟨l,hl,-⟩ := hsame.slots hl'
    rw [h.loots loot hloot] at hl
    exact Option.some_ne_none _ hl.symm

theorem Placed.of_sublist {s' : Looting} (h : s.Placed) (hsame : SameSlots s s')
    (hsub : s'.rollId.Sublist s.rollId) : s'.Placed :=
  h.of_sameSlots hsame fun r hr => ⟨r,hsub.subset hr,rfl,rfl⟩

theorem Placed.itemAt {s' : Looting} {r' : Roll} (h : s.Placed) (hr : r ∈ s.rollId)
    (hloot : (s.loots r.loot).isSome) (hsame : SameSlots s s')
    (hplace : r'.loot = r.loot ∧ r'.itemSlot = r.itemSlot) :
    ∃ item, (s'.loots r'.loot).bind (·.itemAt r'.itemSlot) = some item := by
  obtain ⟨l',hl'⟩ := Option.isSome_iff_exists.mp (hsame.isSome.trans hloot)
  obtain ⟨l,hl,hitems,hquest⟩ := hsame.slots hl'
  have hslot := h.slots r hr l hl
  rw [hplace.1,hplace.2,hl',Option.bind_some]
  unfold Loot.itemAt
  split_ifs with hafter
  · exact ⟨_,List.getElem?_eq_getElem (by omega)⟩
  · exact ⟨_,List.getElem?_eq_getElem (by omega)⟩

theorem newRoll_place (s : Looting) (item : LootItem) (loot slot : Nat) (autoPass : Bool) :
    (newRoll p s item loot slot autoPass).loot = loot ∧
      (newRoll p s item loot slot autoPass).itemSlot = slot := by
  refine List.foldlRecOn (motive := fun r : Roll => r.loot = loot ∧ r.itemSlot = slot) _ _
    ⟨rfl,rfl⟩ fun r h guid _ => ?_
  unfold Roll.join
  split_ifs <;> exact h

theorem Placed.startRoll {l : Loot} (h : s.Placed) (hl : s.loots r.loot = some l)
    (hslot : r.itemSlot < l.items.length+l.questItems.length) :
    (s.startRoll r).Placed ∧ SameSlots s (s.startRoll r) := by
  have hknown : r.loot < s.nextLoot := by
    refine Nat.lt_of_not_le fun hle => ?_
    rw [h.loots _ hle] at hl
    exact Option.some_ne_none _ hl.symm
  unfold Looting.startRoll
  dsimp only
  split_ifs
  · have hadded : Placed { s with rollId := s.rollId ++ [r], nextItemGUID := s.nextItemGUID+1 } := by
      refine ⟨fun r' hr' l' hl' => ?_,fun r' hr' => ?_,h.loots⟩
      · rcases List.mem_append.mp hr' with hr' | hr'
        · exact h.slots r' hr' l' hl'
        · rw [List.mem_singleton.mp hr'] at hl' ⊢
          rw [Option.some.inj (hl'.symm.trans hl)]
          exact hslot
      · rcases List.mem_append.mp hr' with hr' | hr'
        · exact h.known r' hr'
        · rw [List.mem_singleton.mp hr']
          exact hknown
    have hgrown : SameSlots s { s with rollId := s.rollId ++ [r], nextItemGUID := s.nextItemGUID+1 } :=
      ⟨rfl,fun _ => rfl⟩
    exact ⟨hadded.of_sublist (sameSlots_modifyLoot fun l => shape_modifyAt l _ _) (.refl _),
      hgrown.trans (sameSlots_modifyLoot fun l => shape_modifyAt l _ _)⟩
  · exact ⟨⟨h.slots,h.known,h.loots⟩,⟨rfl,fun _ => rfl⟩⟩

theorem Placed.offerItem (h : s.Placed) (stripNeed : Bool) (loot slot : Nat) :
    (offerItem p stripNeed loot s slot).Placed ∧ SameSlots s (offerItem p stripNeed loot s slot) := by
  unfold Looting.offerItem
  split
  · exact ⟨h,.refl s⟩
  · rename_i item hat
    obtain ⟨l,hl,hitem⟩ := Option.bind_eq_some_iff.mp hat
    obtain ⟨hlt,-⟩ := List.getElem?_eq_some_iff.mp hitem
    split_ifs
    · exact ⟨h,.refl s⟩
    · split
      · exact ⟨h,.refl s⟩
      · split_ifs
        · obtain ⟨hloot,hslot⟩ := newRoll_place (p := p) s item loot slot true
          exact h.startRoll (l := l) (by rw [hloot]; exact hl)
            (by rw [hslot]; exact Nat.lt_add_right _ hlt)
        · have hsame : SameSlots s (s.modifyLoot loot
              (·.modifyAt slot fun item => { item with isUnderthreshold := true })) :=
            sameSlots_modifyLoot fun l => shape_modifyAt l _ _
          exact ⟨h.of_sublist hsame (.refl _),hsame⟩

theorem Placed.offerQuestItem {first : Nat} (h : s.Placed) (loot i : Nat)
    (hfirst : ∀ l, s.loots loot = some l → first = l.items.length) :
    (offerQuestItem p loot first s i).Placed ∧ SameSlots s (offerQuestItem p loot first s i) := by
  unfold Looting.offerQuestItem
  split
  · exact ⟨h,.refl s⟩
  · rename_i item hat
    obtain ⟨l,hl,hitem⟩ := Option.bind_eq_some_iff.mp hat
    obtain ⟨hlt,-⟩ := List.getElem?_eq_some_iff.mp hitem
    split_ifs
    · split
      · exact ⟨h,.refl s⟩
      · obtain ⟨hloot,hslot⟩ := newRoll_place (p := p) s item loot (first+i) false
        exact h.startRoll (l := l) (by rw [hloot]; exact hl)
          (by rw [hslot,hfirst l hl]; exact Nat.add_lt_add_left hlt _)
    · exact ⟨h,.refl s⟩

theorem Placed.offer (h : s.Placed) (stripNeed : Bool) (loot : Nat) :
    (s.offer p stripNeed loot).Placed := by
  unfold Looting.offer
  split
  · exact h
  · rename_i l hl
    have hitems := List.foldlRecOn (motive := fun t : Looting => t.Placed ∧ SameSlots s t)
      (List.range l.items.length) (Looting.offerItem p stripNeed loot) ⟨h,.refl s⟩
      fun t ⟨ht,hsame⟩ slot _ =>
        let ⟨ht',hsame'⟩ := ht.offerItem stripNeed loot slot
        ⟨ht',hsame.trans hsame'⟩
    refine (List.foldlRecOn (motive := fun t : Looting => t.Placed ∧ SameSlots s t) _ _ hitems ?_).1
    intro t ⟨ht,hsame⟩ i _
    have hfirst : ∀ l', t.loots loot = some l' → l.items.length = l'.items.length := by
      intro l' hl'
      obtain ⟨l₀,hl₀,hlength,-⟩ := hsame.slots hl'
      rw [hlength,Option.some.inj (hl₀.symm.trans hl)]
    obtain ⟨ht',hsame'⟩ := ht.offerQuestItem (p := p) loot i hfirst
    exact ⟨ht',hsame.trans hsame'⟩

end Placed

section End

theorem award_rollId (rolls : List Roll) (o : RollOff) :
    ({ s with rollId := rolls }).award w r o = { s.award w r o with rollId := rolls } := by
  unfold award
  dsimp only
  split_ifs
  · rfl
  · split
    · rfl
    · split_ifs <;> rfl
  · rfl

theorem settle_rollId (rolls : List Roll) (eligible : RollVote → Bool) (total : Nat) :
    settle w allowedMap { s with rollId := rolls } r eligible total =
      ({ (settle w allowedMap s r eligible total).1 with rollId := rolls },
        (settle w allowedMap s r eligible total).2) := by
  unfold settle
  dsimp only
  split_ifs
  · rfl
  · rw [award_rollId]
  · rfl

theorem decideRoll_rollId (rolls : List Roll) : decideRoll w allowedMap { s with rollId := rolls } r =
    { decideRoll w allowedMap s r with rollId := rolls } := by
  have hneed : settleNeed w allowedMap { s with rollId := rolls } r =
      ({ (settleNeed w allowedMap s r).1 with rollId := rolls },(settleNeed w allowedMap s r).2) := by
    unfold settleNeed
    split_ifs
    · exact settle_rollId rolls _ _
    · rfl
  have hgreed : ∀ (s : Looting) (totalNeed : Nat),
      settleGreed w allowedMap { s with rollId := rolls } r totalNeed =
        ({ (settleGreed w allowedMap s r totalNeed).1 with rollId := rolls },
          (settleGreed w allowedMap s r totalNeed).2) := by
    intro s totalNeed
    unfold settleGreed
    split_ifs
    · exact settle_rollId rolls _ _
    · rfl
  unfold decideRoll
  dsimp only
  rw [hneed]
  dsimp only
  rw [hgreed]
  dsimp only
  split_ifs <;> rfl

theorem sameRolls_decideRoll : SameRolls s (decideRoll w allowedMap s r) := by
  unfold decideRoll
  dsimp only
  split_ifs
  · exact (sameRolls_settleNeed.trans (sameRolls_settleGreed _)).trans (sameRolls_modifyLoot _)
  · exact sameRolls_settleNeed.trans (sameRolls_settleGreed _)

def rollsOf (s : Looting) (loot : Nat) : List Roll := s.rollId.filter fun r => r.loot = loot

def withoutRolls (s : Looting) (loot : Nat) : Looting :=
  { s with rollId := s.rollId.filter fun r => r.loot ≠ loot }

theorem withoutRolls_eq_self (hnone : s.rollsOf loot = []) : s.withoutRolls loot = s := by
  unfold withoutRolls
  rw [List.filter_eq_self.mpr fun r hr => ?_]
  simpa using List.filter_eq_nil_iff.mp hnone r hr

theorem turn_eq (w : World) (allowedMap : Option Nat) {rolls₁ rolls₂ : List Roll}
    (hrolls : s.rollId = rolls₁ ++ r :: rolls₂)
    (hother : ∀ r' ∈ rolls₁, r'.loot ≠ r.loot) (hloot : (s.loots r.loot).isSome) :
    (s.countTheRoll w allowedMap rolls₁.length).rollsOf r.loot =
        rolls₂.filter (fun r' => r'.loot = r.loot) ∧
      (s.countTheRoll w allowedMap rolls₁.length).withoutRolls r.loot =
        decideRoll w allowedMap (s.withoutRolls r.loot) r ∧
      ((s.countTheRoll w allowedMap rolls₁.length).loots r.loot).isSome := by
  have hat : s.rollId[rolls₁.length]? = some r := by simp [hrolls]
  have herase : s.rollId.eraseIdx rolls₁.length = rolls₁ ++ rolls₂ := by
    simp [hrolls,List.eraseIdx_append_of_length_le]
  have hnone : rolls₁.filter (fun r' => r'.loot = r.loot) = [] := by simpa using hother
  rw [countTheRoll_eq w allowedMap hat hloot,herase]
  refine ⟨?_,?_,by rwa [(sameSlots_decideRoll w allowedMap _ r).isSome]⟩
  · rw [rollsOf,sameRolls_decideRoll.rollId,List.filter_append,hnone,List.nil_append]
  · have hleft : s.rollId.filter (fun r' => r'.loot ≠ r.loot) =
        (rolls₁ ++ rolls₂).filter fun r' => r'.loot ≠ r.loot := by simp [hrolls]
    unfold withoutRolls
    rw [sameRolls_decideRoll.rollId,hleft,decideRoll_rollId (s := s) (rolls₁ ++ rolls₂),
      decideRoll_rollId (s := s) ((rolls₁ ++ rolls₂).filter _)]

theorem split_of_findIdx {α : Type} {p : α → Bool} {l : List α} {i : Nat}
    (h : l.findIdx? p = some i) :
    ∃ l₁ a l₂, l = l₁ ++ a :: l₂ ∧ l₁.length = i ∧ (∀ b ∈ l₁, p b = false) ∧ p a = true := by
  obtain ⟨hlt,ha,hbefore⟩ := List.findIdx?_eq_some_iff_getElem.mp h
  refine ⟨l.take i,l[i],l.drop (i+1),?_,List.length_take_of_le hlt.le,fun b hb => ?_,ha⟩
  · rw [← List.drop_eq_getElem_cons hlt,List.take_append_drop]
  · obtain ⟨j,hj,rfl⟩ := List.mem_iff_getElem.mp hb
    rw [List.getElem_take]
    rw [List.length_take] at hj
    exact Bool.eq_false_iff.mpr (hbefore j (by omega))

theorem endRolls_eq (hloot : (s.loots loot).isSome) {n : Nat} (hn : (s.rollsOf loot).length ≤ n) :
    s.endRolls w loot allowedMap n =
      (s.rollsOf loot).foldl (decideRoll w allowedMap) (s.withoutRolls loot) := by
  induction n generalizing s with
  | zero =>
    have hnone := List.eq_nil_of_length_eq_zero (Nat.le_zero.mp hn)
    rw [hnone,List.foldl_nil,withoutRolls_eq_self hnone]
    rfl
  | succ n ih =>
    unfold endRolls
    split
    · rename_i hfound
      have hnone : s.rollsOf loot = [] := List.filter_eq_nil_iff.mpr fun r hr => by
        simpa [hloot] using List.findIdx?_eq_none_iff.mp hfound r hr
      rw [hnone,List.foldl_nil,withoutRolls_eq_self hnone]
    · rename_i i hfound
      obtain ⟨rolls₁,r,rolls₂,hrolls,rfl,hbefore,hr⟩ := split_of_findIdx hfound
      simp only [hloot,and_true,decide_eq_true_eq,decide_eq_false_iff_not] at hr hbefore
      subst hr
      obtain ⟨hrest,hdecided,hloot'⟩ := turn_eq w allowedMap hrolls hbefore hloot
      have hfirst : s.rollsOf r.loot = r :: rolls₂.filter fun r' => r'.loot = r.loot := by
        have hnone : rolls₁.filter (fun r' => r'.loot = r.loot) = [] := by simpa using hbefore
        rw [rollsOf,hrolls,List.filter_append,hnone,List.nil_append,List.filter_cons_of_pos (by simp)]
      rw [hfirst,List.length_cons] at hn
      rw [ih hloot' (by rw [hrest]; omega),hrest,hdecided,hfirst,List.foldl_cons]

end End

section Runs

theorem Placed.countTheRoll (h : s.Placed) (allowedMap : Option Nat) (i : Nat) :
    (s.countTheRoll w allowedMap i).Placed := by
  have herased : Placed { s with rollId := s.rollId.eraseIdx i } :=
    h.of_sublist ⟨rfl,fun _ => rfl⟩ (List.eraseIdx_sublist _ _)
  cases hr : s.rollId[i]? with
  | none =>
    simp only [Looting.countTheRoll,hr]
    exact h
  | some r =>
    by_cases hloot : (s.loots r.loot).isSome
    · rw [countTheRoll_eq w allowedMap hr hloot]
      exact herased.of_sublist (sameSlots_decideRoll w allowedMap _ r)
        (by rw [sameRolls_decideRoll.rollId])
    · have hgone : (s.loots r.loot).isNone := by simpa using hloot
      simp only [Looting.countTheRoll,hr,hgone,if_true]
      exact herased

theorem Placed.endRoll (h : s.Placed) (loot : Nat) (allowedMap : Option Nat) :
    (s.endRoll w loot allowedMap).Placed :=
  endRoll_induction (P := Placed) (fun _ i h => h.countTheRoll allowedMap i) h loot

theorem vote_place (r : Roll) (guid choice : Nat) :
    (r.vote guid choice).loot = r.loot ∧ (r.vote guid choice).itemSlot = r.itemSlot := by
  cases hchoice : Roll.choiceVote choice with
  | none => rw [Roll.vote_of_none hchoice]; exact ⟨rfl,rfl⟩
  | some v => rw [Roll.vote_eq hchoice]; exact ⟨rfl,rfl⟩

theorem Placed.set {i : Nat} {r' : Roll} (h : s.Placed) (hr : s.rollId[i]? = some r)
    (hplace : r'.loot = r.loot ∧ r'.itemSlot = r.itemSlot) :
    Placed { s with rollId := s.rollId.set i r' } := by
  refine h.of_sameSlots ⟨rfl,fun _ => rfl⟩ fun a ha => ?_
  rcases List.mem_or_eq_of_mem_set ha with ha | rfl
  · exact ⟨a,ha,rfl,rfl⟩
  · exact ⟨r,List.mem_of_getElem? hr,hplace⟩

theorem Placed.countRollVote (h : s.Placed) (playerGUID guid choice : Nat) :
    (s.countRollVote w playerGUID guid choice).Placed := by
  unfold Looting.countRollVote
  split
  · exact h
  · rename_i i r hopen
    have hset := h.set (openRoll_spec hopen).1 (vote_place r playerGUID choice)
    dsimp only
    split_ifs
    · exact hset.countTheRoll none i
    · exact hset

theorem Placed.removeVotes (h : s.Placed) (hdistinct : s.Distinct) (guid : Nat) :
    (s.removeVotes w guid).Placed := by
  rw [removeVotes_eq hdistinct]
  refine h.of_sameSlots ⟨rfl,fun _ => rfl⟩ fun r hr => ?_
  obtain ⟨r',hr',rfl⟩ := List.mem_map.mp hr
  refine ⟨r',hr',?_⟩
  unfold Roll.left
  split <;> exact ⟨rfl,rfl⟩

theorem Placed.addLoot (h : s.Placed) (l : Loot) : (s.addLoot l).Placed := by
  refine ⟨fun r hr l' hl' => ?_,fun r hr => Nat.lt_succ_of_lt (h.known r hr),fun loot hloot => ?_⟩
  · have hold : r.loot ≠ s.nextLoot := Nat.ne_of_lt (h.known r hr)
    simp only [Looting.addLoot,Function.update_of_ne hold] at hl'
    exact h.slots r hr l' hl'
  · have hnew : loot ≠ s.nextLoot := Nat.ne_of_gt hloot
    simp only [Looting.addLoot,Function.update_of_ne hnew]
    exact h.loots loot (Nat.le_of_lt hloot)

theorem Placed.clearLoot (h : s.Placed) (loot : Nat) : (s.clearLoot loot).Placed := by
  have hless : ∀ k l, (s.clearLoot loot).loots k = some l → s.loots k = some l := by
    intro k l hl
    by_cases hk : k = loot
    · simp [Looting.clearLoot,hk] at hl
    · simpa only [Looting.clearLoot,Function.update_of_ne hk] using hl
  refine ⟨fun r hr l hl => h.slots r hr l (hless _ l hl),h.known,fun k hk => ?_⟩
  rw [Option.eq_none_iff_forall_ne_some]
  intro l hl
  exact Option.some_ne_none l ((hless k l hl).symm.trans (h.loots k hk))

theorem kept_placed {P : Roll → Prop} (hP : Lasting P) :
    Realm.Kept (fun _ _ => True) fun s => RollInv P s ∧ s.Placed where
  noRolls h := ⟨(kept_rollInv hP).noRolls h.1,
    h.2.of_sublist ⟨rfl,fun _ => rfl⟩ (List.nil_sublist _)⟩
  restart h := ⟨(kept_rollInv hP).restart h.1,
    ⟨fun _ hr => absurd hr List.not_mem_nil,fun _ hr => absurd hr List.not_mem_nil,fun _ _ => rfl⟩⟩
  addLoot h l := ⟨(kept_rollInv hP).addLoot h.1 l,h.2.addLoot l⟩
  clearLoot h loot := ⟨(kept_rollInv hP).clearLoot h.1 loot,h.2.clearLoot loot⟩
  groupLoot h _ loot _ := ⟨h.1.offer hP false loot,h.2.offer false loot⟩
  needBeforeGreed h _ loot _ := ⟨h.1.offer hP true loot,h.2.offer true loot⟩
  countRollVote h _ playerGUID guid choice _ :=
    ⟨h.1.countRollVote hP playerGUID guid choice,h.2.countRollVote playerGUID guid choice⟩
  endRoll h _ loot allowedMap := ⟨h.1.endRoll loot allowedMap,h.2.endRoll loot allowedMap⟩
  removeVotes h _ guid := ⟨h.1.removeVotes hP guid,h.2.removeVotes h.1.distinct guid⟩

end Runs

end Looting

namespace Realm

open Looting

/-- The decision of a roll for an item is as it should be exactly if the roll can be resolved. -/
def ResolvedIff (w : World) (allowedMap : Option Nat) (s : Looting) (r : Roll) : Prop :=
  ∃ item, (s.loots r.loot).bind (·.itemAt r.itemSlot) = some item ∧
    (Resolved w allowedMap s r item ↔ Resolvable w allowedMap r item)

theorem resolvedIff_of_placed {s s' : Looting} {w : World} {allowedMap : Option Nat} {r r' : Roll}
    (hplaced : s.Placed) (hr : r ∈ s.rollId) (hloot : (s.loots r.loot).isSome)
    (hsame : SameSlots s s') (hplace : r'.loot = r.loot ∧ r'.itemSlot = r.itemSlot)
    (hcovered : r'.Covered) : ResolvedIff w allowedMap s' r' := by
  obtain ⟨item,hitem⟩ := hplaced.itemAt hr hloot hsame hplace
  exact ⟨item,hitem,resolved_iff_of_covered hitem hcovered⟩

theorem sameSlots_decideRolls (w : World) (allowedMap : Option Nat) (rolls : List Roll) (s : Looting) :
    SameSlots s (rolls.foldl (decideRoll w allowedMap) s) :=
  List.foldlRecOn (motive := SameSlots s) rolls _ (.refl s) fun s' h r _ =>
    h.trans (sameSlots_decideRoll w allowedMap s' r)

theorem rollId_decideRolls (w : World) (allowedMap : Option Nat) (rolls : List Roll) (s : Looting) :
    (rolls.foldl (decideRoll w allowedMap) s).rollId = s.rollId :=
  List.foldlRecOn (motive := fun s' : Looting => s'.rollId = s.rollId) rolls _ rfl fun _ h _ _ =>
    sameRolls_decideRoll.rollId.trans h

/-- After any run, the end of the rolls of a loot takes as many turns as there are rolls, decides the
rolls of the loot one after the other, each once, and leaves the others. A decision there, or after
a vote, is as it should be exactly if the roll can be resolved. -/
theorem rolls_resolved_iff (as : List Action) (w : World) (allowedMap : Option Nat) :
    let s := (Run.exec step start as).looting
    (∀ loot, (s.loots loot).isSome →
      (∀ n, s.rollId.length ≤ n → s.endRolls w loot allowedMap n = s.endRoll w loot allowedMap) ∧
      s.endRoll w loot allowedMap =
        (s.rollsOf loot).foldl (decideRoll w allowedMap) (s.withoutRolls loot) ∧
      (s.endRoll w loot allowedMap).rollId = (s.withoutRolls loot).rollId ∧
      ∀ before r after, s.rollsOf loot = before ++ r :: after → ResolvedIff w allowedMap
        (before.foldl (decideRoll w allowedMap) (s.withoutRolls loot)) r) ∧
    ∀ i r guid choice, s.rollId[i]? = some r → (s.loots r.loot).isSome →
      countTheRoll w allowedMap { s with rollId := s.rollId.set i (r.vote guid choice) } i =
        decideRoll w allowedMap { s with rollId := s.rollId.eraseIdx i } (r.vote guid choice) ∧
      ResolvedIff w allowedMap { s with rollId := s.rollId.eraseIdx i } (r.vote guid choice) := by
  intro s
  obtain ⟨hinv,hplaced⟩ : s.RollInv Roll.Undecided ∧ s.Placed :=
    kept_run (kept_placed Roll.lasting_undecided) ⟨⟨.nil,fun _ hr => absurd hr List.not_mem_nil,
      fun _ hr => absurd hr List.not_mem_nil⟩,⟨fun _ hr => absurd hr List.not_mem_nil,
      fun _ hr => absurd hr List.not_mem_nil,fun _ _ => rfl⟩⟩ as
  constructor
  · intro loot hloot
    have hlength : (s.rollsOf loot).length ≤ s.rollId.length := List.length_filter_le _ _
    have hend : s.endRoll w loot allowedMap =
        (s.rollsOf loot).foldl (decideRoll w allowedMap) (s.withoutRolls loot) :=
      endRolls_eq hloot hlength
    refine ⟨fun n hn => (endRolls_eq hloot (hlength.trans hn)).trans hend.symm,hend,?_,?_⟩
    · rw [hend,rollId_decideRolls]
    · intro before r after hrolls
      obtain ⟨hr,hrloot⟩ := List.mem_filter.mp (show r ∈ s.rollsOf loot by simp [hrolls])
      have hrloot' : r.loot = loot := of_decide_eq_true hrloot
      have hstart : SameSlots s (s.withoutRolls loot) := ⟨rfl,fun _ => rfl⟩
      exact resolvedIff_of_placed hplaced hr (hrloot' ▸ hloot)
        (hstart.trans (sameSlots_decideRolls w allowedMap before _)) ⟨rfl,rfl⟩
        (hinv.rolls r hr).toCovered
  · intro i r guid choice hget hloot
    have hr := List.mem_of_getElem? hget
    have hplace := vote_place r guid choice
    have hlt := (List.getElem?_eq_some_iff.mp hget).1
    refine ⟨?_,resolvedIff_of_placed hplaced hr hloot ⟨rfl,fun _ => rfl⟩ hplace
      (Roll.covered_vote (hinv.rolls r hr) guid choice)⟩
    have hset := countTheRoll_eq (s := { s with rollId := s.rollId.set i (r.vote guid choice) }) w
      allowedMap (List.getElem?_set_self hlt) (hplace.1 ▸ hloot)
    rw [hset]
    simp only [List.eraseIdx_set_eq]

section Example

def enchanters : Party :=
  { threeMembers with
    itemTemplate := fun _ => some
      { quality := 2, disenchantID := 1, requiredDisenchantSkill := 0, needRollDisabled := false } }

/-- The bags have room for the item, but not for both materials it is disenchanted into. -/
def crampedWorld : World :=
  { quietWorld with
    materials := fun _ => [(34054,2),(34056,1)], canStoreMaterial := fun _ i => i = 0 }

/-- Player 1 is to disenchant the item, and the others have not voted. -/
def disenchanting : Looting :=
  (Run.exec step start [.create 1 .party,.addMember 2,.addMember 3,.addLoot oneItem,
    .groupLoot enchanters 0,.countRollVote crampedWorld 1 0 3]).looting

def disenchantRoll : Roll := disenchanting.rollId.head (by decide +kernel)

end Example

theorem material_lost : disenchanting.rollsOf 0 = [disenchantRoll] ∧
    ∃ item, ((disenchanting.withoutRolls 0).loots 0).bind (·.itemAt disenchantRoll.itemSlot) = some item ∧
      ¬ Resolved crampedWorld none (disenchanting.withoutRolls 0) disenchantRoll item := by
  have hsingle : disenchanting.rollId = [disenchantRoll] := by
    have hone : disenchanting.rollId.length = 1 := by decide +kernel
    obtain ⟨r,hr⟩ := List.length_eq_one_iff.mp hone
    simp only [disenchantRoll,hr,List.head_cons]
  have hloot : disenchantRoll.loot = 0 := by decide +kernel
  have hitem : ((disenchanting.withoutRolls 0).loots 0).bind (·.itemAt disenchantRoll.itemSlot) =
      some ⟨25,1,false,true,false,false,false⟩ := by decide +kernel
  refine ⟨by simp [rollsOf,hsingle,hloot],_,hitem,fun hresolved => ?_⟩
  have hcovered : disenchantRoll.Covered := ⟨by decide +kernel,by decide +kernel,by decide +kernel⟩
  have hneed : best crampedWorld none disenchantRoll isNeed = none := by decide +kernel
  have hgreed : best crampedWorld none disenchantRoll isGreed = some (1,.disenchant) := by
    decide +kernel
  have hno : ¬ AnyPresent crampedWorld none disenchantRoll isNeed := fun hany =>
    anyPresent_iff.mp hany hneed
  have hstored := ((resolved_iff_of_covered (by rwa [hloot]) hcovered).mp hresolved).stored 1 hno
    (best_first hgreed) rfl 1 (by decide)
  exact absurd hstored (by decide)

end Realm

end TrinityCore.Groups
