import TrinityCore.Looting.Finished

set_option autoImplicit false

namespace TrinityCore.Looting

variable {w : FillWorld} {group : Option LootGroup} {l l' : Loot} {given : List Stored}
  {tokens tokens' new : List Token} {counted player : Nat} {present : Bool} {t : Token}

structure Grown (l l' : Loot) : Prop where
  entry : ∀ e item, l.entry e = some item → ∃ item', l'.entry e = some item' ∧ EntryKept item item'
  own : ∀ e p list, l.ownList e p = some list → l'.ownList e p = some list
  conditional : ∀ p list, l.playerNonQuestNonFFAConditionalItems p = some list →
    l'.playerNonQuestNonFFAConditionalItems p = some list

theorem Fills.grown (hf : Fills l l' new)
    (hconditional : ∀ p list, l.playerNonQuestNonFFAConditionalItems p = some list →
      l'.playerNonQuestNonFFAConditionalItems p = some list) : Grown l l' :=
  ⟨fun _ _ => hf.entry,hf.ownKept,hconditional⟩

section Extend

theorem Grown.seen (h : Grown l l') (ht : l.Seen t) : l'.Seen t := by
  obtain ⟨item,hitem,hone,hsees⟩ := ht
  obtain ⟨item',hitem',hkept⟩ := h.entry _ item hitem
  refine ⟨item',hitem',hkept.freeforall ▸ hone,?_⟩
  have hown : ∀ {e p}, (∃ list, l.ownList e p = some list ∧ ∃ x ∈ list, x.index = e.index) →
      ∃ list, l'.ownList e p = some list ∧ ∃ x ∈ list, x.index = e.index := by
    rintro e p ⟨list,hlist,hx⟩
    exact ⟨list,h.own e p list hlist,hx⟩
  obtain ⟨e,o⟩ := t
  cases o with
  | some p =>
    cases e with
    | item i => exact hown (e := .item i) hsees
    | quest i => exact hown (e := .quest i) hsees
  | none =>
    cases e with
    | quest i =>
      obtain ⟨p,hlist⟩ := hsees
      exact ⟨p,hown (e := .quest i) hlist⟩
    | item i =>
      rcases hsees with hconditions | ⟨p,list,hlist,hx⟩
      · exact .inl (hkept.conditions.trans hconditions)
      · exact .inr ⟨p,list,h.conditional p list hlist,hx⟩

theorem Grown.spent (h : Grown l l') (hseen : l.Seen t) (ht : l'.Spent t) : l.Spent t := by
  obtain ⟨item,hitem,-,hsees⟩ := hseen
  obtain ⟨item',hitem',hkept⟩ := h.entry _ item hitem
  obtain ⟨e,o⟩ := t
  cases o with
  | none =>
    obtain ⟨item₁,hitem₁,hlooted⟩ := ht
    cases hitem₁.symm.trans hitem'
    exact ⟨item,hitem,hkept.isLooted.symm.trans hlooted⟩
  | some p =>
    obtain ⟨list',hlist',hx⟩ := ht
    have hown : ∃ list, l.ownList e p = some list := by
      cases e with
      | item i =>
        obtain ⟨list,hlist,-⟩ := hsees
        exact ⟨list,hlist⟩
      | quest i =>
        obtain ⟨list,hlist,-⟩ := hsees
        exact ⟨list,hlist⟩
    obtain ⟨list,hlist⟩ := hown
    cases hlist'.symm.trans (h.own e p list hlist)
    exact ⟨list',hlist,hx⟩

theorem Exact.extend (h : Exact l given tokens) (hg : Grown l l') (hnodup : new.Nodup)
    (hnew : ∀ t ∈ new, ¬l.Seen t) (hseen : ∀ t ∈ new, l'.Seen t ∧ ¬l'.Spent t)
    (hcount : l'.unlootedCount = l.unlootedCount+new.length)
    (hitems : l'.items.length ≤ maxNrLootItems)
    (hquest : ∀ p list, l'.playerQuestItems p = some list → l.playerQuestItems p = some list ∨
      ∀ x ∈ list, x.isLooted = false ∧ ∃ item, l'.entry (.quest x.index) = some item)
    (hffa : ∀ p list, l'.playerFFAItems p = some list → l.playerFFAItems p = some list ∨
      ∀ x ∈ list, ∃ item, l'.entry (.item x.index) = some item ∧ item.freeforall = true)
    (hconditional : ∀ p list, l'.playerNonQuestNonFFAConditionalItems p = some list →
      l.playerNonQuestNonFFAConditionalItems p = some list ∨
      ∀ x ∈ list, x.isLooted = false ∧ ∃ item, l'.entry (.item x.index) = some item ∧
        item.freeforall = false ∧ item.conditions ≠ [] ∧ item.isCounted = true) :
    Exact l' given (tokens ++ new) where
  nodup := by
    apply List.nodup_append.mpr
    refine ⟨h.nodup,hnodup,?_⟩
    rintro t ht t' ht' rfl
    exact hnew t ht' (h.seen t ht)
  size := by
    rw [List.length_append,hcount,← h.size]
    omega
  items := hitems
  seen := by
    intro t ht
    rcases List.mem_append.mp ht with hold | ht
    · exact hg.seen (h.seen t hold)
    · exact (hseen t ht).1
  given := by
    intro t ht hspent
    rcases List.mem_append.mp ht with hold | ht
    · exact h.given t hold (hg.spent (h.seen t hold) hspent)
    · exact absurd hspent (hseen t ht).2
  quest := by
    intro p list x hlist hx
    rcases hquest p list hlist with hold | hmade
    · obtain ⟨item,hitem,hlooted⟩ := h.quest p list x hold hx
      obtain ⟨item',hitem',hkept⟩ := hg.entry _ item hitem
      refine ⟨item',hitem',fun hl hf => ?_⟩
      rw [hkept.isLooted]
      exact hlooted hl (hkept.freeforall ▸ hf)
    · obtain ⟨hl,item,hitem⟩ := hmade x hx
      exact ⟨item,hitem,by simp [hl]⟩
  ffa := by
    intro p list x hlist hx
    rcases hffa p list hlist with hold | hmade
    · obtain ⟨item,hitem,hf⟩ := h.ffa p list x hold hx
      obtain ⟨item',hitem',hkept⟩ := hg.entry _ item hitem
      exact ⟨item',hitem',hkept.freeforall.trans hf⟩
    · exact hmade x hx
  conditional := by
    intro p list x hlist hx
    rcases hconditional p list hlist with hold | hmade
    · obtain ⟨item,hitem,hf,hc,hcounted,hlooted⟩ := h.conditional p list x hold hx
      obtain ⟨item',hitem',hkept⟩ := hg.entry _ item hitem
      refine ⟨item',hitem',hkept.freeforall.trans hf,?_,hkept.isCounted hcounted,fun hl => ?_⟩
      · rw [hkept.conditions]
        exact hc
      · rw [hkept.isLooted]
        exact hlooted hl
    · obtain ⟨hl,item,hitem,hf,hc,hcounted⟩ := hmade x hx
      exact ⟨item,hitem,hf,hc,hcounted,by simp [hl]⟩

theorem exact_empty : Exact Loot.empty [] [] where
  nodup := .nil
  size := rfl
  items := Nat.zero_le _
  seen := by simp
  given := by simp
  quest := by simp [Loot.empty]
  ffa := by simp [Loot.empty]
  conditional := by simp [Loot.empty]

end Extend

section Rolled

theorem nodup_tokensFrom (start n : Nat) : (tokensFrom start n).Nodup := by
  apply List.nodup_range.map
  intro i j h
  have hentry := congrArg Token.entry h
  have hindex := Entry.item.inj hentry
  omega

theorem Exact.append (h : Exact l given tokens) (items quest : List LootItem) (plain : Bool)
    (hplain : plain = true → ∀ item ∈ items,
      item.freeforall = false ∧ item.conditions = [] ∧ item.isLooted = false)
    (hroom : l.unlootedCount+(if plain then items.length else 0) < 256)
    (hlen : items.length ≤ maxNrLootItems-l.items.length) :
    ∃ tokens', Exact (Loot.countUp
      { l with items := l.items ++ items, questItems := l.questItems ++ quest }
      (if plain then items.length else 0)) given tokens' := by
  have hgrown : Grown l (Loot.countUp
      { l with items := l.items ++ items, questItems := l.questItems ++ quest }
      (if plain then items.length else 0)) := by
    refine ⟨?_,?_,fun p list hlist => hlist⟩
    · intro e item he
      refine ⟨item,?_,.refl item⟩
      cases e with
      | item i =>
        obtain ⟨hlt,-⟩ := List.getElem?_eq_some_iff.mp he
        exact (List.getElem?_append_left hlt).trans he
      | quest i =>
        obtain ⟨hlt,-⟩ := List.getElem?_eq_some_iff.mp he
        exact (List.getElem?_append_left hlt).trans he
    · intro e p list hlist
      cases e <;> exact hlist
  refine ⟨tokens ++ (if plain then tokensFrom l.items.length items.length else []),
    h.extend hgrown ?_ ?_ ?_ ?_ ?_ (fun _ _ hl => .inl hl) (fun _ _ hl => .inl hl)
      (fun _ _ hl => .inl hl)⟩
  · split
    · exact nodup_tokensFrom _ _
    · exact .nil
  · intro t ht hseen
    split at ht
    · obtain ⟨k,hk,rfl⟩ := List.mem_map.mp ht
      obtain ⟨item,hitem,-⟩ := hseen
      obtain ⟨hlt,-⟩ := List.getElem?_eq_some_iff.mp hitem
      omega
    · cases ht
  · intro t ht
    split at ht
    · rename_i hp
      obtain ⟨k,hk,rfl⟩ := List.mem_map.mp ht
      have hlt : k < items.length := List.mem_range.mp hk
      have hitem : (Loot.countUp
          { l with items := l.items ++ items, questItems := l.questItems ++ quest }
          (if plain then items.length else 0)).entry (.item (l.items.length+k)) =
            some items[k] := by
        change (l.items ++ items)[l.items.length+k]? = some items[k]
        rw [List.getElem?_append_right (by omega),Nat.add_sub_cancel_left,
          List.getElem?_eq_getElem hlt]
      obtain ⟨hf,hconditions,hlooted⟩ := hplain hp _ (List.getElem_mem hlt)
      refine ⟨⟨_,hitem,by simp [hf],.inl hconditions⟩,?_⟩
      rintro ⟨item,hitem₁,hl⟩
      cases hitem₁.symm.trans hitem
      rw [hlooted] at hl
      cases hl
    · cases ht
  · have hnew : (if plain then tokensFrom l.items.length items.length else []).length =
        if plain then items.length else 0 := by
      split <;> simp [tokensFrom]
    rw [hnew]
    exact Nat.mod_eq_of_lt hroom
  · have hitems := h.items
    change (l.items ++ items).length ≤ maxNrLootItems
    rw [List.length_append]
    omega

theorem Exact.addItem (h : Exact l [] tokens) (hr : RolledLoot l tokens' counted) (r : Rolled) :
    ∃ tokens', Exact (l.addItem w r) [] tokens' := by
  have hbyte := hr.sound.byte
  unfold Loot.addItem
  cases hproto : w.getItemTemplate r.item.itemid with
  | none => exact ⟨tokens,h⟩
  | some proto =>
    dsimp only
    split
    · have happend := h.append []
        (Loot.rolledEntries r proto (Loot.maxNrQuestItems-l.questItems.length)) false
        (by simp) (by simpa using hbyte) (Nat.zero_le _)
      simp only [Bool.false_eq_true,if_false,List.append_nil] at happend
      rw [countUp_zero] at happend
      · exact happend
      · exact hbyte
    · have hlen := length_rolledEntries r proto (maxNrLootItems-l.items.length)
      have hitems := hr.items
      have hfew := hr.few
      have hlimit : maxNrLootItems = 16 := rfl
      split
      · rename_i hplain
        have happend := h.append (Loot.rolledEntries r proto (maxNrLootItems-l.items.length)) [] true
          (by
            intro _ item hitem
            obtain ⟨-,hlooted,hf,hc,-,-⟩ := rolledEntries_spec hitem
            exact ⟨by simpa [hf] using hplain.2,hc.trans hplain.1,hlooted⟩)
          (by
            rw [if_pos rfl]
            omega) hlen
        simpa only [if_true,List.append_nil] using happend
      · have happend := h.append (Loot.rolledEntries r proto (maxNrLootItems-l.items.length)) [] false
          (by simp) (by simpa using hbyte) hlen
        simp only [Bool.false_eq_true,if_false,List.append_nil] at happend
        rw [countUp_zero] at happend
        · exact happend
        · exact hbyte

theorem Exact.addItem_foldl (h : Exact l [] tokens) (hr : RolledLoot l tokens' counted)
    (rolled : List Rolled) :
    ∃ tokens', Exact (rolled.foldl (fun l r => l.addItem w r) l) [] tokens' := by
  induction rolled generalizing l tokens tokens' counted with
  | nil => exact ⟨tokens,h⟩
  | cons r rolled ih =>
    obtain ⟨_,hnext⟩ := h.addItem (w := w) hr r
    obtain ⟨_,_,hrnext⟩ := hr.addItem (w := w) r
    exact ih hnext hrnext

end Rolled

section Quest

theorem QuestListed.token {i : Nat} {item item' : LootItem} {first : List Token}
    (h : QuestListed player i item item' first) (ht : t ∈ first) :
    t.entry = .quest i ∧ (item.freeforall = true ∧ t.player = some player ∨
      item.freeforall = false ∧ item.isBlocked = false ∧ t.player = none) := by
  rw [h.first] at ht
  split at ht
  · rename_i hcounted
    rw [List.mem_singleton.mp ht]
    refine ⟨rfl,?_⟩
    cases hf : item.freeforall with
    | true => exact .inl ⟨rfl,by simp⟩
    | false => exact .inr ⟨rfl,by simpa [hf] using hcounted,by simp⟩
  · cases ht

theorem QuestListed.one {i : Nat} {item item' : LootItem} {first : List Token}
    (h : QuestListed player i item item' first) :
    first.Nodup ∧ ∀ t ∈ first, t.entry.index = i := by
  refine ⟨?_,fun t ht => by rw [(h.token ht).1]; rfl⟩
  rw [h.first]
  split <;> simp

theorem index_fillQuestFrom (w : FillWorld) (group : Option LootGroup) (player i : Nat)
    (items : List LootItem) {room : Nat} (hroom : 0 < room) :
    (Loot.fillQuestFrom w group player room i items).2.1.map NotNormalLootItem.index =
      (items.findIdxs (Loot.isQuestLootFor w group player) i).take room := by
  induction items generalizing room i with
  | nil => simp [Loot.fillQuestFrom]
  | cons item rest ih =>
    unfold Loot.fillQuestFrom
    rw [List.findIdxs_cons]
    split
    · obtain ⟨room,rfl⟩ := Nat.exists_eq_succ_of_ne_zero (Nat.ne_of_gt hroom)
      rw [List.take_succ_cons]
      dsimp only
      split
      · rename_i hone
        rw [show room = 0 by omega,List.take_zero]
        rfl
      · rw [List.map_cons,Nat.succ_sub_one,ih (i+1) (by omega : 0 < room)]
    · exact ih (i+1) hroom

def Loot.questList (l : Loot) (w : FillWorld) (group : Option LootGroup) (player : Nat) :
    List NotNormalLootItem :=
  if l.items.length = maxNrLootItems then []
  else (fillQuestFrom w group player (maxNrLootItems-l.items.length) 0 l.questItems).2.1

theorem mem_questEntriesFor (hitems : l.items.length ≤ maxNrLootItems) {x : NotNormalLootItem}
    (hx : x ∈ l.questList w group player) : x.index ∈ l.questEntriesFor w group player := by
  unfold Loot.questList at hx
  split at hx
  · cases hx
  · unfold Loot.questEntriesFor
    rw [← index_fillQuestFrom w group player 0 l.questItems (by omega)]
    exact List.mem_map.mpr ⟨x,hx,rfl⟩

theorem fillQuestLoot_own (hnone : l.playerQuestItems player = none) {list : List NotNormalLootItem} :
    (l.fillQuestLoot w group player).playerQuestItems player = some list ↔
      list ≠ [] ∧ list = l.questList w group player := by
  unfold Loot.fillQuestLoot Loot.questList
  split
  · rw [hnone]
    simp
  · exact own_update hnone

theorem Exact.fillQuestLoot (h : Exact l given tokens) (hnone : l.playerQuestItems player = none)
    (honce : l.CountsOnce w group player)
    (hroom : l.unlootedCount+l.questCount w group player ≤ 255) :
    ∃ tokens', Exact (l.fillQuestLoot w group player) given tokens' := by
  by_cases hfull : l.items.length = maxNrLootItems
  · have heq : l.fillQuestLoot w group player = l := if_pos hfull
    rw [heq]
    exact ⟨tokens,h⟩
  obtain ⟨new,hpass⟩ := pass_fillQuestFrom w group player (maxNrLootItems-l.items.length) 0
    l.questItems
  have hf := fills_fillQuestLoot hfull hnone hpass hroom
  have hlist : l.questList w group player = (l.questResult w group player).2.1 := if_neg hfull
  have hrecords : ∀ x ∈ l.questList w group player, x.isLooted = false ∧
      ∃ item, l.entry (.quest x.index) = some item := by
    rw [hlist]
    intro x hx
    obtain ⟨-,hl,item,_,_,hitem,-⟩ := hpass.record hx
    exact ⟨hl,item,hitem⟩
  have hlisted : ∀ t ∈ new, ∃ x ∈ l.questList w group player, ∃ item, t.entry = .quest x.index ∧
      l.entry (.quest x.index) = some item ∧ item.isLooted = false ∧
      (item.freeforall = true ∧ t.player = some player ∨
        item.freeforall = false ∧ item.isBlocked = false ∧ t.player = none) := by
    rw [hlist]
    intro t ht
    obtain ⟨x,hx,item,_,_,hitem,-,hlisted,ht⟩ := hpass.token ht
    obtain ⟨he,hkind⟩ := hlisted.token ht
    exact ⟨x,hx,item,he,hitem,hlisted.isLooted,hkind⟩
  have hgrown := hf.grown fun p list hl => (congrFun fillQuestLoot_conditional p).trans hl
  refine ⟨tokens ++ new,h.extend hgrown (hpass.nodup QuestListed.one) ?_ ?_ hf.count
    ((congrArg List.length fillQuestLoot_items).trans_le h.items) ?_ ?_ ?_⟩
  · -- an entry that is counted is in no list of the player yet, and for one player in none at all
    intro t ht hseen
    obtain ⟨x,hx,item,he,hi,-,hkind⟩ := hlisted t ht
    obtain ⟨_,_,_,hsees⟩ := hseen
    obtain ⟨e,o⟩ := t
    cases he
    rcases hkind with ⟨-,rfl⟩ | ⟨hf,hb,rfl⟩
    · obtain ⟨list,hl,-⟩ := hsees
      cases hnone.symm.trans hl
    · obtain ⟨p,list,hl,y,hy,hindex⟩ := hsees
      exact honce x.index (mem_questEntriesFor h.items hx) item hi hf hb p list hl y hy hindex
  · intro t ht
    obtain ⟨x,hx,item,he,hi,hlooted,hkind⟩ := hlisted t ht
    obtain ⟨item',hitem',hk⟩ := hf.entry hi
    have hown : (l.fillQuestLoot w group player).playerQuestItems player =
        some (l.questList w group player) :=
      (fillQuestLoot_own hnone).mpr ⟨List.ne_nil_of_mem hx,rfl⟩
    obtain ⟨e,o⟩ := t
    cases he
    rcases hkind with ⟨hffa,rfl⟩ | ⟨hffa,hb,rfl⟩
    · refine ⟨⟨item',hitem',by simp [hk.freeforall,hffa],_,hown,x,hx,rfl⟩,?_⟩
      rintro ⟨list,hlist₁,y,hy,hindex,hy'⟩
      cases hlist₁.symm.trans hown
      rw [(hrecords y hy).1] at hy'
      cases hy'
    · refine ⟨⟨item',hitem',by simp [hk.freeforall,hffa],_,_,hown,x,hx,rfl⟩,?_⟩
      rintro ⟨item₂,hitem₂,hl₂⟩
      cases hitem₂.symm.trans hitem'
      rw [hk.isLooted,hlooted] at hl₂
      cases hl₂
  · intro p list hl
    by_cases hp : p = player
    · subst hp
      obtain ⟨-,rfl⟩ := (fillQuestLoot_own hnone).mp hl
      right
      intro x hx
      obtain ⟨hl,item,hi⟩ := hrecords x hx
      obtain ⟨item',hitem',-⟩ := hf.entry hi
      exact ⟨hl,item',hitem'⟩
    · exact .inl ((fillQuestLoot_other hp).symm.trans hl)
  · exact fun p list hl => .inl ((congrFun fillQuestLoot_ffa p).symm.trans hl)
  · exact fun p list hl => .inl ((congrFun fillQuestLoot_conditional p).symm.trans hl)

end Quest

section FreeForAll

theorem Exact.fillFFALoot (h : Exact l given tokens) (hnone : l.playerFFAItems player = none)
    (hroom : l.unlootedCount+l.ffaCount w player ≤ 255) :
    ∃ tokens', Exact (l.fillFFALoot w player) given tokens' := by
  have hf := fills_fillFFALoot hnone hroom
  have hown : ∀ {list}, (l.fillFFALoot w player).playerFFAItems player = some list ↔
      list ≠ [] ∧ list = l.ffaList w player := by
    intro list
    rw [fillFFALoot_own]
    exact own_update hnone
  have hgrown := hf.grown fun p list hl => (congrFun fillFFALoot_conditional p).trans hl
  refine ⟨tokens ++ l.ffaTokens w player,h.extend hgrown ?_ ?_ ?_ hf.count
    ((congrArg List.length fillFFALoot_items).trans_le h.items) ?_ ?_ ?_⟩
  · have hindex : ((l.ffaList w player).map NotNormalLootItem.index).Nodup := nodup_ffaList
    apply List.Nodup.of_map Token.entry
    rw [Loot.ffaTokens,List.map_map]
    have heq : Token.entry ∘ (fun x : NotNormalLootItem => ⟨.item x.index,some player⟩) =
        Entry.item ∘ NotNormalLootItem.index := rfl
    rw [heq,← List.map_map]
    exact hindex.map fun _ _ => Entry.item.inj
  · intro t ht hseen
    obtain ⟨x,hx,rfl⟩ := List.mem_map.mp ht
    obtain ⟨_,_,_,list,hl,-⟩ := hseen
    cases hnone.symm.trans hl
  · intro t ht
    obtain ⟨x,hx,rfl⟩ := List.mem_map.mp ht
    obtain ⟨-,item,hitem,-,hf,-⟩ := mem_ffaList.mp hx
    refine ⟨⟨item,(fillFFALoot_entry _).trans hitem,by simp [hf],_,
      hown.mpr ⟨List.ne_nil_of_mem hx,rfl⟩,x,hx,rfl⟩,?_⟩
    rintro ⟨list,hl,y,hy,-,hlooted⟩
    obtain ⟨-,rfl⟩ := hown.mp hl
    rw [(mem_ffaList.mp hy).1] at hlooted
    cases hlooted
  · exact fun p list hl => .inl ((congrFun fillFFALoot_quest p).symm.trans hl)
  · intro p list hl
    by_cases hp : p = player
    · subst hp
      obtain ⟨-,rfl⟩ := hown.mp hl
      right
      intro x hx
      obtain ⟨-,item,hitem,-,hf,-⟩ := mem_ffaList.mp hx
      exact ⟨item,(fillFFALoot_entry _).trans hitem,hf⟩
    · exact .inl ((fillFFALoot_other hp).symm.trans hl)
  · exact fun p list hl => .inl ((congrFun fillFFALoot_conditional p).symm.trans hl)

end FreeForAll

section Conditional

theorem ConditionalListed.token {i : Nat} {item item' : LootItem} {first : List Token}
    (h : ConditionalListed i item item' first) (ht : t ∈ first) :
    t = ⟨.item i,none⟩ ∧ item.isCounted = false := by
  rw [h.first] at ht
  split at ht
  · cases ht
  · rename_i hnot
    exact ⟨List.mem_singleton.mp ht,by simpa using hnot⟩

theorem ConditionalListed.one {i : Nat} {item item' : LootItem} {first : List Token}
    (h : ConditionalListed i item item' first) :
    first.Nodup ∧ ∀ t ∈ first, t.entry.index = i := by
  refine ⟨?_,fun t ht => by rw [(h.token ht).1]; rfl⟩
  rw [h.first]
  split <;> simp

theorem Exact.fillConditional (h : Exact l given tokens)
    (hnone : l.playerNonQuestNonFFAConditionalItems player = none)
    (hroom : l.unlootedCount+l.conditionalCount w player present ≤ 255) :
    ∃ tokens', Exact (l.fillNonQuestNonFFAConditionalLoot w player present) given tokens' := by
  obtain ⟨new,hpass⟩ := pass_fillConditionalFrom w player present 0 l.items
  have hf := fills_fillConditional hpass hroom
  have hrecords : ∀ x ∈ (Loot.fillConditionalFrom w player present 0 l.items).2.1,
      x.isLooted = false ∧ ∃ item, (l.fillNonQuestNonFFAConditionalLoot w player present).entry
        (.item x.index) = some item ∧ item.freeforall = false ∧ item.conditions ≠ [] ∧
        item.isCounted = true ∧ item.isLooted = false := by
    intro x hx
    obtain ⟨-,hl,item,item',_,-,hitem',hlisted,-⟩ := hpass.record hx
    refine ⟨hl,item',hitem',hlisted.kept.freeforall.trans hlisted.freeforall,?_,hlisted.isCounted,
      hlisted.kept.isLooted.trans hlisted.isLooted⟩
    rw [hlisted.kept.conditions]
    exact hlisted.conditions
  have hlisted : ∀ t ∈ new, ∃ x ∈ (Loot.fillConditionalFrom w player present 0 l.items).2.1,
      t = ⟨.item x.index,none⟩ ∧ ∃ item, l.entry (.item x.index) = some item ∧
        item.isCounted = false := by
    intro t ht
    obtain ⟨x,hx,item,_,_,hitem,-,hlisted,ht⟩ := hpass.token ht
    obtain ⟨heq,hnot⟩ := hlisted.token ht
    exact ⟨x,hx,heq,item,hitem,hnot⟩
  have hgrown := hf.grown fun p list hl => by
    have hp : p ≠ player := by
      rintro rfl
      cases hnone.symm.trans hl
    exact (fillConditional_other hp).trans hl
  refine ⟨tokens ++ new,h.extend hgrown (hpass.nodup ConditionalListed.one) ?_ ?_ hf.count
    (hpass.length ▸ h.items) (fun _ _ hl => .inl hl) (fun _ _ hl => .inl hl) ?_⟩
  · -- what was in a list before has been counted
    intro t ht hseen
    obtain ⟨x,hx,rfl,item,hitem,hnot⟩ := hlisted t ht
    obtain ⟨-,item',hitem',-,hconditions,-⟩ := hrecords x hx
    obtain ⟨item₁,hitem₁,hk⟩ := hf.entry hitem
    cases hitem₁.symm.trans hitem'
    obtain ⟨item₂,hitem₂,-,hsees⟩ := hseen
    cases hitem.symm.trans hitem₂
    rcases hsees with hempty | ⟨p,list,hl,y,hy,hindex⟩
    · exact hconditions (hk.conditions.trans hempty)
    · obtain ⟨item₃,hitem₃,-,-,hcounted,-⟩ := h.conditional p list y hl hy
      rw [hindex] at hitem₃
      cases hitem.symm.trans hitem₃
      rw [hnot] at hcounted
      cases hcounted
  · intro t ht
    obtain ⟨x,hx,rfl,-⟩ := hlisted t ht
    obtain ⟨-,item',hitem',hffa,hconditions,-,hlooted⟩ := hrecords x hx
    refine ⟨⟨item',hitem',by simp [hffa],.inr ⟨_,_,
      (own_update hnone).mpr ⟨List.ne_nil_of_mem hx,rfl⟩,x,hx,rfl⟩⟩,?_⟩
    rintro ⟨item₁,hitem₁,hl⟩
    cases hitem₁.symm.trans hitem'
    rw [hlooted] at hl
    cases hl
  · intro p list hl
    by_cases hp : p = player
    · subst hp
      obtain ⟨-,rfl⟩ := (own_update hnone).mp hl
      right
      intro x hx
      obtain ⟨hl,item,hitem,hffa,hconditions,hcounted,-⟩ := hrecords x hx
      exact ⟨hl,item,hitem,hffa,hconditions,hcounted⟩
    · exact .inl ((fillConditional_other hp).symm.trans hl)

end Conditional

section Filled

theorem Exact.fillLists (h : Exact l given tokens) (hnone : NoLists l player)
    (honce : l.CountsOnce w group player)
    (hroom : l.unlootedCount+l.newEntries w group player present ≤ 255) :
    ∃ tokens', Exact (l.fillLists w group player present) given tokens' := by
  unfold Loot.newEntries at hroom
  have hquest : l.unlootedCount+l.questCount w group player ≤ 255 := by omega
  rw [fillLists_eq hnone]
  obtain ⟨_,h₁⟩ := h.fillQuestLoot hnone.quest honce hquest
  have hcount₁ := fillQuestLoot_count hquest
  have hroom₂ : (l.fillQuestLoot w group player).unlootedCount+
      (l.fillQuestLoot w group player).ffaCount w player ≤ 255 := by
    rw [ffaCount_fillQuestLoot,hcount₁]
    omega
  obtain ⟨_,h₂⟩ := h₁.fillFFALoot hnone.ffa_filled hroom₂
  have hcount₂ := fillFFALoot_count hroom₂
  rw [ffaCount_fillQuestLoot,hcount₁] at hcount₂
  refine h₂.fillConditional hnone.conditional_filled ?_
  rw [conditionalCount_filled,hcount₂]
  omega

theorem Exact.storeCurrency {i : Nat} (he : Exact l given tokens')
    (h : Storing w l given tokens counted player i) :
    Exact (Loot.storeCurrency w player (l,given) i).1 (Loot.storeCurrency w player (l,given) i).2
      tokens' := by
  unfold Loot.storeCurrency
  dsimp only
  split
  · exact he
  · rename_i item hitem
    split
    · rename_i hcond
      simp only [Bool.and_eq_true,Bool.not_eq_true'] at hcond
      obtain ⟨⟨⟨hlooted,hffa⟩,hallows⟩,-⟩ := hcond
      exact he.storeLootItem h.listing.sound
        (h.mayLoot (w.looter player i) hitem hlooted hffa hallows)
    · exact he

theorem Exact.loop (he : Exact l given tokens') (h : Storing w l given tokens counted player 0)
    (n : Nat) : Exact ((List.range n).foldl (Loot.storeCurrency w player) (l,given)).1
      ((List.range n).foldl (Loot.storeCurrency w player) (l,given)).2 tokens' := by
  induction n with
  | zero => exact he
  | succ n ih =>
    rw [List.range_succ,List.foldl_append]
    exact ih.storeCurrency (h.loop n)

theorem Exact.fillNotNormalLootFor (he : Exact l given tokens')
    (h : Listing l given tokens counted) (hnone : NoLists l player)
    (honce : l.CountsOnce w group player)
    (hroom : l.unlootedCount+l.newEntries w group player present ≤ 255) :
    ∃ tokens', Exact (Loot.fillNotNormalLootFor w group player present (l,given)).1
      (Loot.fillNotNormalLootFor w group player present (l,given)).2 tokens' := by
  obtain ⟨tokens₁,hlists⟩ := he.fillLists hnone honce hroom
  obtain ⟨_,_,hlisting,hfresh,hcomplete⟩ := h.fillLists hnone hroom
  refine ⟨tokens₁,?_⟩
  unfold Loot.fillNotNormalLootFor
  dsimp only
  split
  · exact hlists.loop ⟨hlisting,hcomplete,hfresh.unlootedFrom⟩ _
  · exact hlists

theorem Exact.fillMembers {g : LootGroup} {members : List GroupMember}
    (he : Exact l given tokens') (h : Listing l given tokens counted)
    (hnone : ∀ member ∈ members, NoLists l member.guid)
    (hnodup : (members.map GroupMember.guid).Nodup)
    (hroom : RoomForMembers w g (l,given) members)
    (honce : OnceForMembers w g (l,given) members) :
    ∃ tokens', Exact (members.foldl (Loot.fillMember w g) (l,given)).1
      (members.foldl (Loot.fillMember w g) (l,given)).2 tokens' := by
  induction members generalizing l given tokens tokens' counted with
  | nil => exact ⟨tokens',he⟩
  | cons member members ih =>
    obtain ⟨hfirst,hrest⟩ := hroom
    obtain ⟨honceFirst,honceRest⟩ := honce
    obtain ⟨hnotin,hnodup⟩ := List.nodup_cons.mp hnodup
    rw [List.foldl_cons]
    unfold Loot.fillMember at hrest honceRest ⊢
    cases hmap : member.isInMap with
    | false =>
      simp only [hmap,Bool.false_eq_true,if_false] at hrest honceRest ⊢
      exact ih he h (fun m hm => hnone m (List.mem_cons_of_mem _ hm)) hnodup hrest honceRest
    | true =>
      simp only [hmap,if_true] at hrest honceRest ⊢
      have hmember := hnone member List.mem_cons_self
      obtain ⟨_,he'⟩ := he.fillNotNormalLootFor h hmember (honceFirst hmap) (hfirst hmap)
      obtain ⟨_,_,h'⟩ := h.fillNotNormalLootFor hmember (hfirst hmap)
      refine ih he' h' ?_ hnodup hrest honceRest
      intro m hm
      have hne : m.guid ≠ member.guid := by
        intro heq
        exact hnotin (heq ▸ List.mem_map.mpr ⟨m,hm,rfl⟩)
      exact noLists_fillNotNormalLootFor (hnone m (List.mem_cons_of_mem _ hm)) hmember hne

theorem Exact.setUnderthreshold (h : Exact l given tokens) (w : FillWorld) (g : LootGroup) :
    Exact (l.setUnderthreshold w g) given tokens := by
  have hgrown : Grown l (l.setUnderthreshold w g) := by
    refine ⟨?_,?_,fun p list hl => hl⟩
    · intro e item he
      cases e with
      | item i =>
        have hi : l.items[i]? = some item := he
        simp only [Loot.setUnderthreshold,Loot.entry,List.getElem?_map,hi,Option.map_some]
        refine ⟨_,rfl,?_⟩
        split
        · exact ⟨rfl,rfl,rfl,rfl,rfl,rfl,id⟩
        · exact .refl item
      | quest i => exact ⟨item,he,.refl item⟩
    · intro e p list hl
      cases e <;> exact hl
  have hsame := h.extend hgrown .nil (by simp) (by simp) rfl
    ((List.length_map _).trans_le h.items) (fun _ _ hl => .inl hl) (fun _ _ hl => .inl hl)
    (fun _ _ hl => .inl hl)
  rwa [List.append_nil] at hsame

theorem countsOnce_of_noLists (h : ∀ p, l.playerQuestItems p = none) :
    l.CountsOnce w group player := by
  intro x _ item _ _ _ p list hl
  cases (h p).symm.trans hl

theorem exact_fillLoot (w : FillWorld) (rolled : List Rolled) (lootOwner : Nat)
    (ownerGroup : Option LootGroup) (personal : Bool)
    (hroom : RoomToFill w rolled ownerGroup personal)
    (honce : OnceToFill w rolled ownerGroup personal) :
    ∃ tokens, Exact (Loot.empty.fillLoot w rolled lootOwner ownerGroup personal).1
      (Loot.empty.fillLoot w rolled lootOwner ownerGroup personal).2 tokens := by
  obtain ⟨tokens,counted,h⟩ := rolledLoot_empty.addItem_foldl (w := w) rolled
  obtain ⟨tokens',he⟩ := exact_empty.addItem_foldl (w := w) rolledLoot_empty rolled
  unfold Loot.fillLoot
  dsimp only
  split
  · rename_i g hgroup
    obtain ⟨hpersonal,hg⟩ : personal = false ∧ ownerGroup = some g := by
      split at hgroup
      · simp at hgroup
      · exact ⟨by simp_all,hgroup⟩
    obtain ⟨tokens₁,h₁⟩ := he.fillMembers (g := g) h.listing
      (fun member _ => h.noLists member.guid) g.nodup (hroom g hg hpersonal)
      (honce g hg hpersonal)
    exact ⟨tokens₁,h₁.setUnderthreshold w g⟩
  · exact he.fillNotNormalLootFor h.listing (h.noLists lootOwner)
      (countsOnce_of_noLists fun p => h.lists (.quest 0) p) (h.room w ownerGroup lootOwner true)

end Filled

section Finished

/-- The call is one of `StoreLootItem`, and a slot that is open to the player is one to be
looted. -/
def MayStore (l : Loot) : LootCall → Prop
  | .storeLootItem looter player lootSlot => MayLoot l looter player lootSlot
  | .lootMasterGive .. => False

theorem Exact.runs {calls : List (LootCall × Option Stored)}
    (h : Trace.Runs (Trace.Guarded MayStore Loot.Step) l calls l') (he : Exact l given tokens')
    (hs : Sound l given tokens counted) :
    Exact l' (given ++ storedBy calls) tokens' ∧
      Sound l' (given ++ storedBy calls) tokens counted := by
  induction calls generalizing l given with
  | nil =>
    cases h
    simpa [storedBy] using ⟨he,hs⟩
  | cons call calls ih =>
    obtain ⟨next,⟨hmay,hstep⟩,hrest⟩ := h
    obtain ⟨c,answer⟩ := call
    have heq : storedBy ((c,answer) :: calls) = answer.toList ++ storedBy calls := by
      cases answer <;> simp [storedBy]
    rw [heq,← List.append_assoc]
    cases c with
    | lootMasterGive looter target slotid => cases hmay
    | storeLootItem looter player lootSlot =>
      have hnext := he.storeLootItem hs hmay
      have hsound := hs.storeLootItem hmay
      change l.storeLootItem looter player lootSlot = (next,answer) at hstep
      rw [hstep] at hnext hsound
      exact ih hrest hnext hsound

theorem finished_iff_nothing_left (w : FillWorld) (rolled : List Rolled) (lootOwner : Nat)
    (ownerGroup : Option LootGroup) (personal : Bool)
    (hroom : RoomToFill w rolled ownerGroup personal)
    (honce : OnceToFill w rolled ownerGroup personal) (calls : List (LootCall × Option Stored))
    (h : Trace.Runs (Trace.Guarded MayStore Loot.Step)
      (Loot.empty.fillLoot w rolled lootOwner ownerGroup personal).1 calls l') :
    l'.unlootedCount = 0 ↔ l'.NothingLeft := by
  obtain ⟨_,_,hsound⟩ := sound_fillLoot w rolled lootOwner ownerGroup personal hroom
  obtain ⟨_,hexact⟩ := exact_fillLoot w rolled lootOwner ownerGroup personal hroom honce
  obtain ⟨hexact',hsound'⟩ := hexact.runs h hsound
  exact hsound'.finished_iff hexact'

/-- A call of `StoreLootItem` that stores something, by a player who has a list. -/
def StoresListed (l : Loot) : LootCall → Prop
  | .storeLootItem looter player lootSlot =>
    (l.storeLootItem looter player lootSlot).2 ≠ none ∧
      (l.playerQuestItems player ≠ none ∨ l.playerFFAItems player ≠ none ∨
        l.playerNonQuestNonFFAConditionalItems player ≠ none)
  | .lootMasterGive .. => False

theorem one_lt_maxCount : 1 < 256 := by decide

/-- An entry with conditions and one without. -/
def conditionalAndPlain : List Rolled :=
  [⟨⟨17,false,[1]⟩,⟨1,one_lt_maxCount⟩,0,0⟩,⟨⟨17,false,[]⟩,⟨1,one_lt_maxCount⟩,0,0⟩]

theorem finished_and_something_left : ¬∀ (w : FillWorld) (rolled : List Rolled) (lootOwner : Nat)
    (ownerGroup : Option LootGroup) (personal : Bool) (calls : List (LootCall × Option Stored))
    (l' : Loot), Trace.Runs (Trace.Guarded StoresListed Loot.Step)
      (Loot.empty.fillLoot w rolled lootOwner ownerGroup personal).1 calls l' →
    (l'.unlootedCount = 0 ↔ l'.NothingLeft) := by
  intro h
  -- both members loot the entry with conditions, and the counter does not wait for the other
  have hrun := h oneItemWorld conditionalAndPlain 1 (some twoMembers) false
    [(.storeLootItem anyLooter 1 0,some ⟨.item 0,1,17,1,false⟩),
      (.storeLootItem anyLooter 2 0,some ⟨.item 0,2,17,1,false⟩)] _
    ⟨_,⟨⟨by decide,.inr (.inr (by decide))⟩,rfl⟩,_,⟨⟨by decide,.inr (.inr (by decide))⟩,rfl⟩,rfl⟩
  have hleft := (hrun.mp (by decide)).2 1 _ rfl rfl rfl
  revert hleft
  decide

/-- Only the second member has the quest of item 18. -/
def questWorld : FillWorld where
  getItemTemplate := fun itemid =>
    if itemid = 17 ∨ itemid = 18 then some ⟨1,false,false,false,2⟩ else none
  allowedForPlayer := fun player itemid _ _ => itemid = 17 || player = 2
  canStoreNewItem := fun _ _ _ _ => true

/-- An entry with conditions, one without and one for a quest. -/
def threeKinds : List Rolled := conditionalAndPlain ++ [⟨⟨18,true,[]⟩,⟨1,one_lt_maxCount⟩,0,0⟩]

def filledForTwo : Loot := (Loot.empty.fillLoot questWorld threeKinds 1 (some twoMembers) false).1

/-- The second member loots the entries that are open to one player, the first the one with
conditions. -/
theorem finished_iff_two_members :
    let l := ((filledForTwo.run (.storeLootItem (questWorld.looter 2 2) 2 2)).1.run
      (.storeLootItem (questWorld.looter 2 1) 2 1)).1
    let l' := (l.run (.storeLootItem (questWorld.looter 1 0) 1 0)).1
    (l.unlootedCount = 0 ↔ l.NothingLeft) ∧ (l'.unlootedCount = 0 ↔ l'.NothingLeft) := by
  have hroom : RoomToFill questWorld threeKinds (some twoMembers) false := by
    intro group hgroup _
    cases hgroup
    exact ⟨by decide,by decide,trivial⟩
  have honce : OnceToFill questWorld threeKinds (some twoMembers) false := by
    intro group hgroup _
    cases hgroup
    refine ⟨fun _ _ _ _ _ _ _ _ _ hlist => ?_,fun _ _ _ _ _ _ _ _ _ hlist => ?_,trivial⟩
    · exact nomatch hlist
    · exact nomatch hlist
  have hmay : ∀ (l : Loot) (player lootSlot : Nat) (slot : LootSlot),
      l.lootItemInSlot lootSlot player = some slot → slot.item.isLooted = false →
      slot.item.freeforall = false →
      (slot.qitem = none → slot.item.conditions = [] ∨ slot.item.isCounted = true) →
      MayLoot l (questWorld.looter player lootSlot) player lootSlot := by
    intro l player lootSlot slot hslot hlooted hffa hcond slot' hslot' _
    obtain rfl := Option.some.inj (hslot.symm.trans hslot')
    exact ⟨hlooted,fun h => absurd h (by simp [hffa]),fun _ => hcond⟩
  have htwo : Trace.Runs (Trace.Guarded MayStore Loot.Step) filledForTwo
      [(.storeLootItem (questWorld.looter 2 2) 2 2,some ⟨.quest 0,2,18,1,false⟩),
        (.storeLootItem (questWorld.looter 2 1) 2 1,some ⟨.item 1,2,17,1,false⟩)] _ :=
    ⟨_,⟨hmay _ 2 2 _ rfl rfl rfl nofun,rfl⟩,_,⟨hmay _ 2 1 _ rfl rfl rfl fun _ => .inl rfl,rfl⟩,rfl⟩
  have hthree : Trace.Runs (Trace.Guarded MayStore Loot.Step) filledForTwo
      [(.storeLootItem (questWorld.looter 2 2) 2 2,some ⟨.quest 0,2,18,1,false⟩),
        (.storeLootItem (questWorld.looter 2 1) 2 1,some ⟨.item 1,2,17,1,false⟩),
        (.storeLootItem (questWorld.looter 1 0) 1 0,some ⟨.item 0,1,17,1,false⟩)] _ :=
    ⟨_,⟨hmay _ 2 2 _ rfl rfl rfl nofun,rfl⟩,_,⟨hmay _ 2 1 _ rfl rfl rfl fun _ => .inl rfl,rfl⟩,
      _,⟨hmay _ 1 0 _ rfl rfl rfl fun _ => .inr rfl,rfl⟩,rfl⟩
  exact ⟨finished_iff_nothing_left questWorld threeKinds 1 (some twoMembers) false hroom honce _ htwo,
    finished_iff_nothing_left questWorld threeKinds 1 (some twoMembers) false hroom honce _ hthree⟩

end Finished

end TrinityCore.Looting
