import TrinityCore.Looting.Loot
import TrinityCore.Lib.Trace

set_option autoImplicit false

namespace TrinityCore.Looting

/-- What can be given once: an entry, or the share of a player in an entry that is free for all. -/
structure Token where
  entry : Entry
  player : Option Nat
  deriving DecidableEq

def Stored.token (s : Stored) : Token := ⟨s.entry,if s.freeforall then some s.player else none⟩

def Entry.index : Entry → Nat
  | .item i => i
  | .quest i => i

namespace Loot

/-- The list of a player in which entries of this kind are recorded one by one. -/
def ownList (l : Loot) (e : Entry) (player : Nat) : Option (List NotNormalLootItem) :=
  match e with
  | .item _ => l.playerFFAItems player
  | .quest _ => l.playerQuestItems player

def Spent (l : Loot) (t : Token) : Prop :=
  match t.player with
  | none => ∃ item, l.entry t.entry = some item ∧ item.isLooted = true
  | some p => ∃ list, l.ownList t.entry p = some list ∧
      ∃ x ∈ list, x.index = t.entry.index ∧ x.isLooted = true

end Loot

/-- What may become of an entry: it can get looted, and then its count does not matter any more
unless it is free for all. -/
structure Later (item item' : LootItem) : Prop where
  itemid : item'.itemid = item.itemid
  needsQuest : item'.needsQuest = item.needsQuest
  freeforall : item'.freeforall = item.freeforall
  conditions : item'.conditions = item.conditions
  isCounted : item'.isCounted = item.isCounted
  isBlocked : item'.isBlocked = item.isBlocked
  looted : item.isLooted = true → item'.isLooted = true
  count : item'.freeforall = true ∨ item'.isLooted = false → item'.count = item.count
  fresh : item'.freeforall = true → item'.isLooted = item.isLooted

structure LaterRecord (x x' : NotNormalLootItem) : Prop where
  index : x'.index = x.index
  looted : x.isLooted = true → x'.isLooted = true

structure Progress (l l' : Loot) : Prop where
  gone : ∀ e, l.entry e = none → l'.entry e = none
  kept : ∀ e item, l.entry e = some item → ∃ item', l'.entry e = some item' ∧ Later item item'
  ownGone : ∀ e p, l.ownList e p = none → l'.ownList e p = none
  ownKept : ∀ e p list, l.ownList e p = some list →
    ∃ list', l'.ownList e p = some list' ∧ List.Forall₂ LaterRecord list list'

/-- A loot after some of it has been given. The tokens are what can be given, and every one of them
has been counted. -/
structure Sound (l : Loot) (given : List Stored) (tokens : List Token) (counted : Nat) : Prop where
  nodup : (given.map Stored.token).Nodup
  known : ∀ s ∈ given, ∃ item, l.entry s.entry = some item ∧ item.freeforall = s.freeforall
  spent : ∀ s ∈ given, l.Spent s.token
  among : ∀ s ∈ given, s.token ∈ tokens
  made : ∀ s ∈ given, 0 < s.count
  positive : ∀ e item, l.entry e = some item → item.freeforall = true ∨ item.isLooted = false →
    0 < item.count
  fresh : ∀ e item, l.entry e = some item → item.freeforall = true → item.isLooted = false
  ownNodup : ∀ e p list, l.ownList e p = some list → (list.map NotNormalLootItem.index).Nodup
  plain : ∀ i item, l.entry (.item i) = some item → item.freeforall = false →
    item.conditions = [] ∨ item.isCounted = true → ⟨.item i,none⟩ ∈ tokens
  own : ∀ e p list x item, l.ownList e p = some list → x ∈ list → x.index = e.index →
    l.entry e = some item → ⟨e,if item.freeforall then some p else none⟩ ∈ tokens
  size : tokens.length ≤ counted
  byte : l.unlootedCount < 256
  sum : l.unlootedCount+given.length = counted

variable {l l' l'' : Loot} {given : List Stored} {tokens : List Token} {counted : Nat}
  {s : Stored} {e : Entry} {item : LootItem} {slot : LootSlot} {looter : Looter}
  {player lootSlot : Nat}

theorem Later.refl (item : LootItem) : Later item item :=
  ⟨rfl,rfl,rfl,rfl,rfl,rfl,id,fun _ => rfl,fun _ => rfl⟩

theorem Later.trans {item' item'' : LootItem} (h : Later item item') (h' : Later item' item'') :
    Later item item'' where
  itemid := h'.itemid.trans h.itemid
  needsQuest := h'.needsQuest.trans h.needsQuest
  freeforall := h'.freeforall.trans h.freeforall
  conditions := h'.conditions.trans h.conditions
  isCounted := h'.isCounted.trans h.isCounted
  isBlocked := h'.isBlocked.trans h.isBlocked
  looted := fun hl => h'.looted (h.looted hl)
  count := by
    intro hl
    rw [h'.count hl]
    apply h.count
    rcases hl with hffa | hlooted
    · exact .inl (h'.freeforall ▸ hffa)
    · cases hx : item'.isLooted with
      | false => exact .inr rfl
      | true => simp [h'.looted hx] at hlooted
  fresh := by
    intro hffa
    rw [h'.fresh hffa,h.fresh (h'.freeforall ▸ hffa)]

theorem LaterRecord.refl (x : NotNormalLootItem) : LaterRecord x x := ⟨rfl,id⟩

theorem forall₂_later_refl (list : List NotNormalLootItem) : List.Forall₂ LaterRecord list list :=
  List.forall₂_same.mpr fun x _ => .refl x

theorem Progress.refl (l : Loot) : Progress l l where
  gone := fun _ h => h
  kept := fun _ item h => ⟨item,h,.refl item⟩
  ownGone := fun _ _ h => h
  ownKept := fun _ _ list h => ⟨list,h,forall₂_later_refl list⟩

theorem forall₂_later_trans {xs ys zs : List NotNormalLootItem}
    (h : List.Forall₂ LaterRecord xs ys) (h' : List.Forall₂ LaterRecord ys zs) :
    List.Forall₂ LaterRecord xs zs := by
  induction h generalizing zs with
  | nil => exact h'
  | cons hxy _ ih =>
    cases h' with
    | cons hyz hrest =>
      exact .cons ⟨hyz.index.trans hxy.index,fun hl => hyz.looted (hxy.looted hl)⟩ (ih hrest)

theorem Progress.trans (h : Progress l l') (h' : Progress l' l'') : Progress l l'' where
  gone := fun e he => h'.gone e (h.gone e he)
  kept := by
    intro e item he
    obtain ⟨item',he',hlater⟩ := h.kept e item he
    obtain ⟨item'',he'',hlater'⟩ := h'.kept e item' he'
    exact ⟨item'',he'',hlater.trans hlater'⟩
  ownGone := fun e p he => h'.ownGone e p (h.ownGone e p he)
  ownKept := by
    intro e p list he
    obtain ⟨list',he',hlater⟩ := h.ownKept e p list he
    obtain ⟨list'',he'',hlater'⟩ := h'.ownKept e p list' he'
    exact ⟨list'',he'',forall₂_later_trans hlater hlater'⟩

theorem map_index_of_later {xs ys : List NotNormalLootItem} (h : List.Forall₂ LaterRecord xs ys) :
    ys.map NotNormalLootItem.index = xs.map NotNormalLootItem.index := by
  induction h with
  | nil => rfl
  | cons hxy _ ih => rw [List.map_cons,List.map_cons,hxy.index,ih]

theorem exists_later {xs ys : List NotNormalLootItem} (h : List.Forall₂ LaterRecord xs ys)
    {x : NotNormalLootItem} (hx : x ∈ xs) : ∃ y ∈ ys, LaterRecord x y := by
  induction h with
  | nil => simp at hx
  | cons hxy _ ih =>
    rcases List.mem_cons.mp hx with rfl | hx
    · exact ⟨_,List.mem_cons_self,hxy⟩
    · obtain ⟨y,hy,hlater⟩ := ih hx
      exact ⟨y,List.mem_cons_of_mem _ hy,hlater⟩

theorem exists_earlier {xs ys : List NotNormalLootItem} (h : List.Forall₂ LaterRecord xs ys)
    {y : NotNormalLootItem} (hy : y ∈ ys) : ∃ x ∈ xs, LaterRecord x y := by
  induction h with
  | nil => simp at hy
  | cons hxy _ ih =>
    rcases List.mem_cons.mp hy with rfl | hy
    · exact ⟨_,List.mem_cons_self,hxy⟩
    · obtain ⟨x,hx,hlater⟩ := ih hy
      exact ⟨x,List.mem_cons_of_mem _ hx,hlater⟩

theorem Progress.spent (h : Progress l l') {t : Token} (ht : l.Spent t) : l'.Spent t := by
  unfold Loot.Spent at ht ⊢
  split at ht
  · obtain ⟨item,hitem,hlooted⟩ := ht
    obtain ⟨item',hitem',hlater⟩ := h.kept _ item hitem
    exact ⟨item',hitem',hlater.looted hlooted⟩
  · obtain ⟨list,hlist,x,hx,hindex,hlooted⟩ := ht
    obtain ⟨list',hlist',hlater⟩ := h.ownKept _ _ list hlist
    obtain ⟨y,hy,hxy⟩ := exists_later hlater hx
    exact ⟨list',hlist',y,hy,hxy.index.trans hindex,hxy.looted hlooted⟩

theorem Progress.earlier (h : Progress l l') {item' : LootItem} (he : l'.entry e = some item') :
    ∃ item, l.entry e = some item ∧ Later item item' := by
  rcases Option.eq_none_or_eq_some (l.entry e) with hn | ⟨item,hi⟩
  · simp [h.gone e hn] at he
  · obtain ⟨item'',he'',hlater⟩ := h.kept e item hi
    rw [he] at he''
    cases he''
    exact ⟨item,hi,hlater⟩

theorem Progress.ownEarlier (h : Progress l l') {list' : List NotNormalLootItem}
    (he : l'.ownList e player = some list') :
    ∃ list, l.ownList e player = some list ∧ List.Forall₂ LaterRecord list list' := by
  rcases Option.eq_none_or_eq_some (l.ownList e player) with hn | ⟨list,hl⟩
  · simp [h.ownGone e player hn] at he
  · obtain ⟨list'',he'',hlater⟩ := h.ownKept e player list hl
    rw [he] at he''
    cases he''
    exact ⟨list,hl,hlater⟩

theorem Sound.counter_pos (h : Sound l given tokens counted) {t : Token} (hnew : ¬l.Spent t)
    (hmem : t ∈ tokens) : 0 < l.unlootedCount := by
  have hsub : (t :: given.map Stored.token).Subperm tokens := by
    apply List.Nodup.subperm
    · rw [List.nodup_cons]
      refine ⟨?_,h.nodup⟩
      intro ht
      obtain ⟨s,hs,rfl⟩ := List.mem_map.mp ht
      exact hnew (h.spent s hs)
    · intro t' ht'
      rcases List.mem_cons.mp ht' with rfl | ht'
      · exact hmem
      · obtain ⟨s,hs,rfl⟩ := List.mem_map.mp ht'
        exact h.among s hs
  have hlen := hsub.length_le
  rw [List.length_cons,List.length_map] at hlen
  have hsize := h.size
  have hsum := h.sum
  omega

theorem Sound.give (h : Sound l given tokens counted) (hp : Progress l l')
    (hitem : ∃ item, l.entry s.entry = some item ∧ item.freeforall = s.freeforall ∧ 0 < s.count)
    (hnew : ¬l.Spent s.token) (hspent : l'.Spent s.token) (hmem : s.token ∈ tokens)
    (hcount : l'.unlootedCount = (l.unlootedCount+255)%256) :
    Sound l' (given ++ [s]) tokens counted where
  nodup := by
    rw [List.map_append,List.map_singleton]
    apply List.nodup_append.mpr
    refine ⟨h.nodup,by simp,?_⟩
    intro t ht t' ht'
    rw [List.mem_singleton] at ht'
    obtain ⟨s',hs',rfl⟩ := List.mem_map.mp ht
    rintro rfl
    exact hnew (ht' ▸ h.spent s' hs')
  known := by
    intro s' hs'
    have hknown : ∃ item, l.entry s'.entry = some item ∧ item.freeforall = s'.freeforall := by
      rcases List.mem_append.mp hs' with hs' | hs'
      · exact h.known s' hs'
      · obtain ⟨item,he,hffa,-⟩ := hitem
        rw [List.mem_singleton.mp hs']
        exact ⟨item,he,hffa⟩
    obtain ⟨item,he,hffa⟩ := hknown
    obtain ⟨item',he',hlater⟩ := hp.kept _ item he
    exact ⟨item',he',hlater.freeforall.trans hffa⟩
  spent := by
    intro s' hs'
    rcases List.mem_append.mp hs' with hs' | hs'
    · exact hp.spent (h.spent s' hs')
    · exact List.mem_singleton.mp hs' ▸ hspent
  among := by
    intro s' hs'
    rcases List.mem_append.mp hs' with hs' | hs'
    · exact h.among s' hs'
    · exact List.mem_singleton.mp hs' ▸ hmem
  made := by
    intro s' hs'
    rcases List.mem_append.mp hs' with hs' | hs'
    · exact h.made s' hs'
    · obtain ⟨-,-,-,hpos⟩ := hitem
      exact List.mem_singleton.mp hs' ▸ hpos
  positive := by
    intro e item' he' hcond
    obtain ⟨item,he,hlater⟩ := hp.earlier he'
    rw [hlater.count hcond]
    apply h.positive e item he
    rcases hcond with hffa | hlooted
    · exact .inl (hlater.freeforall ▸ hffa)
    · cases hx : item.isLooted with
      | false => exact .inr rfl
      | true => simp [hlater.looted hx] at hlooted
  fresh := by
    intro e item' he' hffa
    obtain ⟨item,he,hlater⟩ := hp.earlier he'
    rw [hlater.fresh hffa]
    exact h.fresh e item he (hlater.freeforall ▸ hffa)
  ownNodup := by
    intro e p list' hl'
    obtain ⟨list,hl,hlater⟩ := hp.ownEarlier hl'
    rw [map_index_of_later hlater]
    exact h.ownNodup e p list hl
  plain := by
    intro i item' he' hffa hcond
    obtain ⟨item,he,hlater⟩ := hp.earlier he'
    exact h.plain i item he (hlater.freeforall ▸ hffa) (by
      rwa [← hlater.conditions,← hlater.isCounted])
  own := by
    intro e p list' x' item' hl' hx' hindex he'
    obtain ⟨item,he,hlater⟩ := hp.earlier he'
    obtain ⟨list,hl,hrecords⟩ := hp.ownEarlier hl'
    obtain ⟨x,hx,hrecord⟩ := exists_earlier hrecords hx'
    rw [hlater.freeforall]
    exact h.own e p list x item hl hx (hrecord.index ▸ hindex) he
  size := h.size
  byte := by rw [hcount]; omega
  sum := by
    have hpos := h.counter_pos hnew hmem
    have hbyte := h.byte
    have hsum := h.sum
    rw [hcount,List.length_append,List.length_singleton]
    omega

/-- A slot leads to the entry and to the record of the player that it names. -/
structure SlotSpec (l : Loot) (player : Nat) (slot : LootSlot) : Prop where
  entry : l.entry slot.entry = some slot.item
  own : ∀ pos, slot.qitem = some pos ∨ slot.ffaitem = some pos →
    ∃ list x, l.ownList slot.entry player = some list ∧ list[pos]? = some x ∧
      x.index = slot.entry.index ∧ x.isLooted = false
  quest : ∀ i, slot.entry = .quest i → slot.qitem ≠ none ∧ slot.ffaitem = none
  item : ∀ i, slot.entry = .item i → slot.qitem = none

theorem placeOf_spec {list : Option (List NotNormalLootItem)} {index pos : Nat}
    {x : NotNormalLootItem} (h : Loot.placeOf list index = some (pos,x)) :
    ∃ xs, list = some xs ∧ xs[pos]? = some x ∧ x.index = index := by
  unfold Loot.placeOf at h
  obtain ⟨xs,hxs,h⟩ := Option.bind_eq_some_iff.mp h
  obtain ⟨pos',hpos,h⟩ := Option.bind_eq_some_iff.mp h
  obtain ⟨x',hx,heq⟩ := Option.map_eq_some_iff.mp h
  cases heq
  obtain ⟨hlt,hp,-⟩ := List.findIdx?_eq_some_iff_getElem.mp hpos
  rw [List.getElem?_eq_getElem hlt,Option.some.injEq] at hx
  exact ⟨xs,hxs,by rw [List.getElem?_eq_getElem hlt,hx],by simpa [hx] using hp⟩

theorem lootItemInSlot_spec (h : l.lootItemInSlot lootSlot player = some slot) :
    SlotSpec l player slot := by
  unfold Loot.lootItemInSlot at h
  cases hitem : l.items[lootSlot]? with
  | none =>
    simp only [hitem] at h
    cases hq : (l.playerQuestItems player).bind fun list => list[lootSlot-l.items.length]? with
    | none => simp [hq] at h
    | some x =>
      obtain ⟨list,hlist,hx⟩ := Option.bind_eq_some_iff.mp hq
      cases hquest : l.questItems[x.index]? with
      | none => simp [hq,hquest] at h
      | some item =>
        simp only [hq,hquest] at h
        split at h
        · simp at h
        · rename_i hlooted
          cases h
          refine ⟨hquest,?_,?_,?_⟩
          · intro pos hpos
            simp only [Option.some.injEq,reduceCtorEq,or_false] at hpos
            subst pos
            exact ⟨list,x,hlist,hx,rfl,by simpa using hlooted⟩
          · intro i _
            simp
          · intro i hi
            simp at hi
  | some item =>
    simp only [hitem] at h
    have hplain : ∀ cond : Option Nat, slot = ⟨.item lootSlot,item,none,none,cond⟩ →
        SlotSpec l player slot := by
      rintro cond rfl
      exact ⟨hitem,by simp,by simp,by simp⟩
    split at h
    · split at h
      · rename_i pos x hplace
        split at h
        · simp at h
        · rename_i hlooted
          cases h
          obtain ⟨xs,hxs,hx,hindex⟩ := placeOf_spec hplace
          refine ⟨hitem,?_,by simp,by simp⟩
          intro pos' hpos'
          simp only [reduceCtorEq,Option.some.injEq,false_or] at hpos'
          subst pos'
          exact ⟨xs,x,hxs,hx,hindex,by simpa using hlooted⟩
      · split at h
        · simp at h
        · exact hplain none (Option.some.inj h).symm
    · split at h
      · split at h
        · split at h
          · simp at h
          · exact hplain _ (Option.some.inj h).symm
        · split at h
          · simp at h
          · exact hplain none (Option.some.inj h).symm
      · split at h
        · simp at h
        · exact hplain none (Option.some.inj h).symm

theorem forall₂_modify {list : List NotNormalLootItem} (pos : Nat) :
    List.Forall₂ LaterRecord list (list.modify pos fun x => { x with isLooted := true }) := by
  induction list generalizing pos with
  | nil =>
    rw [List.modify_nil]
    exact .nil
  | cons x list ih =>
    cases pos with
    | zero =>
      rw [List.modify_zero_cons]
      exact .cons ⟨rfl,fun _ => rfl⟩ (forall₂_later_refl list)
    | succ pos =>
      rw [List.modify_succ_cons]
      exact .cons (.refl x) (ih pos)

theorem setListLooted_some (list : List NotNormalLootItem) (pos : Option Nat) :
    ∃ list', Loot.setListLooted (some list) pos = some list' ∧
      List.Forall₂ LaterRecord list list' := by
  cases pos with
  | none => exact ⟨list,rfl,forall₂_later_refl list⟩
  | some pos => exact ⟨_,rfl,forall₂_modify pos⟩

theorem setListLooted_none (pos : Option Nat) : Loot.setListLooted none pos = none := by
  cases pos <;> rfl

theorem ownList_setOwnLooted (e : Entry) (p : Nat) :
    (l.setOwnLooted player slot).ownList e p =
      if p = player then Loot.setListLooted (l.ownList e player)
        (match e with | .item _ => slot.ffaitem | .quest _ => slot.qitem)
      else l.ownList e p := by
  cases e <;> by_cases hp : p = player <;>
    simp [Loot.ownList,Loot.setOwnLooted,hp]

theorem progress_setOwnLooted : Progress l (l.setOwnLooted player slot) where
  gone := by
    intro e he
    cases e <;> exact he
  kept := by
    intro e item he
    refine ⟨item,?_,.refl item⟩
    cases e <;> exact he
  ownGone := by
    intro e p he
    rw [ownList_setOwnLooted]
    split_ifs with hp
    · rw [← hp,he,setListLooted_none]
    · exact he
  ownKept := by
    intro e p list he
    rw [ownList_setOwnLooted]
    split_ifs with hp
    · rw [← hp,he]
      exact setListLooted_some list _
    · exact ⟨list,he,forall₂_later_refl list⟩

theorem entry_modifyEntry (f : LootItem → LootItem) (e e' : Entry) :
    (l.modifyEntry f e).entry e' = if e' = e then (l.entry e).map f else l.entry e' := by
  cases e <;> cases e' <;> simp only [Loot.modifyEntry,Loot.entry,List.getElem?_modify]
  all_goals split_ifs <;> simp_all

theorem ownList_modifyEntry (f : LootItem → LootItem) (e e' : Entry) (p : Nat) :
    (l.modifyEntry f e).ownList e' p = l.ownList e' p := by
  cases e <;> cases e' <;> rfl

theorem progress_modifyEntry {f : LootItem → LootItem}
    (hf : ∀ item, l.entry e = some item → Later item (f item)) :
    Progress l (l.modifyEntry f e) where
  gone := by
    intro e' he'
    rw [entry_modifyEntry]
    split_ifs with heq
    · rw [← heq,he']
      rfl
    · exact he'
  kept := by
    intro e' item he'
    rw [entry_modifyEntry]
    split_ifs with heq
    · subst e'
      exact ⟨f item,by rw [he']; rfl,hf item he'⟩
    · exact ⟨item,he',.refl item⟩
  ownGone := fun e' p h => by rwa [ownList_modifyEntry]
  ownKept := fun e' p list h => ⟨list,by rwa [ownList_modifyEntry],forall₂_later_refl list⟩

theorem progress_markSaved (itemID : Nat) : Progress l (l.markSaved itemID) := by
  cases hi : l.items.findIdx? fun item => item.itemid = itemID with
  | none =>
    have heq : l.markSaved itemID = l := by simp only [Loot.markSaved,hi]
    rw [heq]
    exact .refl l
  | some i =>
    have heq : l.markSaved itemID =
        l.modifyEntry (fun item => { item with canSave := true }) (.item i) := by
      simp only [Loot.markSaved,hi,Loot.modifyEntry]
    rw [heq]
    exact progress_modifyEntry fun item _ => ⟨rfl,rfl,rfl,rfl,rfl,rfl,id,fun _ => rfl,fun _ => rfl⟩

theorem progress_countDown : Progress l l.countDown where
  gone := by
    intro e he
    cases e <;> exact he
  kept := by
    intro e item he
    refine ⟨item,?_,.refl item⟩
    cases e <;> exact he
  ownGone := by
    intro e p he
    cases e <;> exact he
  ownKept := by
    intro e p list he
    refine ⟨list,?_,forall₂_later_refl list⟩
    cases e <;> exact he

def LootSlot.Open (slot : LootSlot) (looter : Looter) : Prop :=
  slot.item.allowedForPlayer looter = true ∧ (slot.qitem = none → slot.item.isBlocked = false) ∧
    looter.canStoreNewItem slot.item.itemid slot.item.count = true

/-- A slot that is open to the player is one to be looted: its entry is not looted, an entry that
is free for all is in the list of the player, and an entry with conditions has been counted. -/
def MayLoot (l : Loot) (looter : Looter) (player lootSlot : Nat) : Prop :=
  ∀ slot, l.lootItemInSlot lootSlot player = some slot → slot.Open looter →
    slot.item.isLooted = false ∧
    (slot.item.freeforall = true → slot.qitem = none → slot.ffaitem ≠ none) ∧
    (slot.item.freeforall = false → slot.qitem = none →
      slot.item.conditions = [] ∨ slot.item.isCounted = true)

/-- An entry that the target can take is one to be given: it is not looted, it is not free for all,
and it has been counted. -/
def MayGive (l : Loot) (looter : Looter) (slotid : Nat) : Prop :=
  ∀ item, l.entry (l.masterEntry slotid) = some item →
    looter.canStoreNewItem item.itemid item.count = true →
    (item.followLootRules = true → item.allowedForPlayer looter = true) →
    item.isLooted = false ∧ item.freeforall = false ∧
    match l.masterEntry slotid with
    | .item _ => item.conditions = [] ∨ item.isCounted = true
    | .quest i => ∃ p list x, l.playerQuestItems p = some list ∧ x ∈ list ∧ x.index = i

/-- What is stored was not given before, it has been counted, and it is spent afterwards. -/
theorem SlotSpec.token (hspec : SlotSpec l player slot) (h : Sound l given tokens counted)
    (hlooted : slot.item.isLooted = false)
    (hffa : slot.item.freeforall = true → slot.qitem = none → slot.ffaitem ≠ none)
    (hcond : slot.item.freeforall = false → slot.qitem = none →
      slot.item.conditions = [] ∨ slot.item.isCounted = true) :
    ¬l.Spent ⟨slot.entry,if slot.item.freeforall then some player else none⟩ ∧
      ⟨slot.entry,if slot.item.freeforall then some player else none⟩ ∈ tokens := by
  cases hf : slot.item.freeforall with
  | true =>
    have hpos : ∃ pos, slot.qitem = some pos ∨ slot.ffaitem = some pos := by
      rcases Option.eq_none_or_eq_some slot.qitem with hq | ⟨pos,hq⟩
      · obtain ⟨pos,hpos⟩ := Option.ne_none_iff_exists'.mp (hffa hf hq)
        exact ⟨pos,.inr hpos⟩
      · exact ⟨pos,.inl hq⟩
    obtain ⟨pos,hpos⟩ := hpos
    obtain ⟨list,x,hlist,hx,hindex,hnot⟩ := hspec.own pos hpos
    have hmem : x ∈ list := List.mem_of_getElem? hx
    constructor
    · rintro ⟨list',hlist',x',hx',hindex',hlooted'⟩
      have heq : list' = list := Option.some.inj (hlist'.symm.trans hlist)
      subst list'
      have hsame : x' = x := List.inj_on_of_nodup_map (h.ownNodup _ _ _ hlist) hx' hmem
        (hindex'.trans hindex.symm)
      rw [hsame,hnot] at hlooted'
      simp at hlooted'
    · have hown := h.own _ _ _ _ _ hlist hmem hindex hspec.entry
      rwa [hf] at hown
  | false =>
    constructor
    · rintro ⟨item,hitem,hlooted'⟩
      have heq : item = slot.item := Option.some.inj (hitem.symm.trans hspec.entry)
      rw [heq,hlooted] at hlooted'
      simp at hlooted'
    · cases he : slot.entry with
      | item i =>
        have hentry := hspec.entry
        rw [he] at hentry
        exact h.plain i slot.item hentry hf (hcond hf (hspec.item i he))
      | quest i =>
        obtain ⟨pos,hpos⟩ := Option.ne_none_iff_exists'.mp (hspec.quest i he).1
        obtain ⟨list,x,hlist,hx,hindex,-⟩ := hspec.own pos (.inl hpos)
        have hown := h.own _ _ _ _ _ hlist (List.mem_of_getElem? hx) hindex hspec.entry
        rwa [hf,he] at hown

theorem mem_modify_looted {list : List NotNormalLootItem} {pos : Nat} {x : NotNormalLootItem}
    (hx : list[pos]? = some x) :
    ∃ y ∈ list.modify pos (fun x => { x with isLooted := true }),
      y.index = x.index ∧ y.isLooted = true := by
  refine ⟨{ x with isLooted := true },?_,rfl,rfl⟩
  apply List.mem_of_getElem?
  rw [List.getElem?_modify_eq,hx]
  rfl

theorem SlotSpec.spent_own (hspec : SlotSpec l player slot)
    (hpos : ∃ pos, slot.qitem = some pos ∨ slot.ffaitem = some pos) :
    (l.setOwnLooted player slot).Spent ⟨slot.entry,some player⟩ := by
  obtain ⟨pos,hpos⟩ := hpos
  obtain ⟨list,x,hlist,hx,hindex,-⟩ := hspec.own pos hpos
  have hplace : (match slot.entry with | .item _ => slot.ffaitem | .quest _ => slot.qitem) =
      some pos := by
    cases he : slot.entry with
    | item i => simpa [hspec.item i he] using hpos
    | quest i => simpa [(hspec.quest i he).2] using hpos
  obtain ⟨y,hy,hyindex,hylooted⟩ := mem_modify_looted hx
  refine ⟨_,?_,y,hy,hyindex.trans hindex,hylooted⟩
  rw [ownList_setOwnLooted,if_pos rfl,hlist,hplace]
  rfl

theorem unlootedCount_modifyEntry (f : LootItem → LootItem) (e : Entry) :
    (l.modifyEntry f e).unlootedCount = l.unlootedCount := by
  cases e <;> rfl

theorem handOut_unlootedCount :
    (l.handOut player slot).unlootedCount = (l.unlootedCount+255)%256 := by
  unfold Loot.handOut Loot.markSaved Loot.setLooted
  dsimp only
  split_ifs <;> simp [Loot.countDown,unlootedCount_modifyEntry,Loot.setOwnLooted]

theorem progress_handOut : Progress (l.setLooted player slot) (l.handOut player slot) := by
  unfold Loot.handOut
  dsimp only
  split
  · exact progress_countDown.trans (progress_markSaved _)
  · exact progress_countDown

theorem SlotSpec.progress (hspec : SlotSpec l player slot) : Progress l (l.handOut player slot) := by
  refine Progress.trans ?_ progress_handOut
  have hown : Progress l (l.setOwnLooted player slot) := progress_setOwnLooted
  unfold Loot.setLooted
  dsimp only
  split
  · exact hown
  · rename_i hffa
    apply hown.trans
    apply progress_modifyEntry
    intro item hitem
    obtain ⟨item',hitem',hlater⟩ := hown.kept _ _ hspec.entry
    have heq : item = item' := Option.some.inj (hitem.symm.trans hitem')
    have hnot : item.freeforall = false := by
      rw [heq,hlater.freeforall]
      simpa using hffa
    exact ⟨rfl,rfl,rfl,rfl,rfl,rfl,fun _ => rfl,fun _ => rfl,by simp [hnot]⟩

theorem SlotSpec.spent (hspec : SlotSpec l player slot)
    (hffa : slot.item.freeforall = true → slot.qitem = none → slot.ffaitem ≠ none) :
    (l.handOut player slot).Spent
      ⟨slot.entry,if slot.item.freeforall then some player else none⟩ := by
  apply progress_handOut.spent
  unfold Loot.setLooted
  dsimp only
  cases hf : slot.item.freeforall with
  | true =>
    apply hspec.spent_own
    rcases Option.eq_none_or_eq_some slot.qitem with hq | ⟨pos,hq⟩
    · obtain ⟨pos,hpos⟩ := Option.ne_none_iff_exists'.mp (hffa hf hq)
      exact ⟨pos,.inr hpos⟩
    · exact ⟨pos,.inl hq⟩
  | false =>
    have hown : Progress l (l.setOwnLooted player slot) := progress_setOwnLooted
    obtain ⟨item,hitem,-⟩ := hown.kept _ _ hspec.entry
    refine ⟨{ item with isLooted := true },?_,rfl⟩
    simp only [Bool.false_eq_true,if_false]
    rw [entry_modifyEntry,if_pos rfl,hitem]
    rfl

theorem storeLootItem_cases (l : Loot) (looter : Looter) (player lootSlot : Nat) :
    l.storeLootItem looter player lootSlot = (l,none) ∨
      ∃ slot, l.lootItemInSlot lootSlot player = some slot ∧ slot.Open looter ∧
        l.storeLootItem looter player lootSlot = (l.handOut player slot,
          some ⟨slot.entry,player,slot.item.itemid,slot.item.count,slot.item.freeforall⟩) := by
  unfold Loot.storeLootItem
  cases hslot : l.lootItemInSlot lootSlot player with
  | none => exact .inl rfl
  | some slot =>
    dsimp only
    split
    · exact .inl rfl
    · split
      · exact .inl rfl
      · split
        · exact .inl rfl
        · refine .inr ⟨slot,rfl,⟨by simp_all,?_,by simp_all⟩,rfl⟩
          intro hq
          simp_all

theorem Sound.storeLootItem (h : Sound l given tokens counted) (hmay : MayLoot l looter player lootSlot) :
    Sound (l.storeLootItem looter player lootSlot).1
      (given ++ (l.storeLootItem looter player lootSlot).2.toList) tokens counted := by
  rcases storeLootItem_cases l looter player lootSlot with heq | ⟨slot,hslot,hopen,heq⟩
  · rw [heq]
    simpa using h
  · rw [heq]
    have hspec := lootItemInSlot_spec hslot
    obtain ⟨hlooted,hffa,hcond⟩ := hmay slot hslot hopen
    obtain ⟨hnew,hmem⟩ := hspec.token h hlooted hffa hcond
    exact h.give hspec.progress
      ⟨slot.item,hspec.entry,rfl,h.positive _ _ hspec.entry (.inr hlooted)⟩ hnew
      (hspec.spent hffa) hmem handOut_unlootedCount

theorem Sound.giveEntry (h : Sound l given tokens counted) (hitem : l.entry e = some item)
    (hlooted : item.isLooted = false) (hffa : item.freeforall = false)
    (hmem : ⟨e,none⟩ ∈ tokens) :
    Sound (l.modifyEntry (fun item => { item with count := 0, isLooted := true }) e).countDown
      (given ++ [⟨e,player,item.itemid,item.count,item.freeforall⟩]) tokens counted := by
  have hnew : ¬l.Spent ⟨e,none⟩ := by
    rintro ⟨item',hitem',hlooted'⟩
    rw [Option.some.inj (hitem'.symm.trans hitem),hlooted] at hlooted'
    simp at hlooted'
  have hlater : Later item { item with count := 0, isLooted := true } :=
    ⟨rfl,rfl,rfl,rfl,rfl,rfl,fun _ => rfl,by simp [hffa],by simp [hffa]⟩
  have hprogress : Progress l
      (l.modifyEntry (fun item => { item with count := 0, isLooted := true }) e).countDown := by
    refine Progress.trans (progress_modifyEntry ?_) progress_countDown
    intro item' hitem'
    rwa [Option.some.inj (hitem'.symm.trans hitem)]
  have hspent :
      (l.modifyEntry (fun item => { item with count := 0, isLooted := true }) e).countDown.Spent
        ⟨e,none⟩ := by
    apply progress_countDown.spent
    refine ⟨{ item with count := 0, isLooted := true },?_,rfl⟩
    rw [entry_modifyEntry,if_pos rfl,hitem]
    rfl
  have hcount : (l.modifyEntry (fun item => { item with count := 0, isLooted := true })
      e).countDown.unlootedCount = (l.unlootedCount+255)%256 := by
    simp only [Loot.countDown,unlootedCount_modifyEntry]
  have htoken : Stored.token ⟨e,player,item.itemid,item.count,item.freeforall⟩ = ⟨e,none⟩ := by
    simp [Stored.token,hffa]
  exact h.give hprogress ⟨item,hitem,rfl,h.positive e item hitem (.inr hlooted)⟩
    (htoken ▸ hnew) (htoken ▸ hspent) (htoken ▸ hmem) hcount

theorem Sound.lootMasterGive (h : Sound l given tokens counted) (hmay : MayGive l looter lootSlot) :
    Sound (l.lootMasterGive looter player lootSlot).1
      (given ++ (l.lootMasterGive looter player lootSlot).2.toList) tokens counted := by
  unfold Loot.lootMasterGive
  dsimp only
  cases hitem : l.entry (l.masterEntry lootSlot) with
  | none => simpa using h
  | some item =>
    dsimp only
    split
    · simpa using h
    rename_i hroom
    split
    · simpa using h
    rename_i hrules
    obtain ⟨hlooted,hffa,hcounted⟩ := hmay item hitem (by simpa using hroom) (by simpa using hrules)
    have hmem : (⟨l.masterEntry lootSlot,none⟩ : Token) ∈ tokens := by
      generalize l.masterEntry lootSlot = e at hitem hcounted
      cases e with
      | item i => exact h.plain i item hitem hffa hcounted
      | quest i =>
        obtain ⟨p,list,x,hlist,hx,hindex⟩ := hcounted
        have hown := h.own (.quest i) p list x item hlist hx hindex hitem
        rwa [hffa] at hown
    exact h.giveEntry hitem hlooted hffa hmem

inductive LootCall where
  | storeLootItem (looter : Looter) (player lootSlot : Nat)
  | lootMasterGive (looter : Looter) (target slotid : Nat)

def Loot.run (l : Loot) : LootCall → Loot × Option Stored
  | .storeLootItem looter player lootSlot => l.storeLootItem looter player lootSlot
  | .lootMasterGive looter target slotid => l.lootMasterGive looter target slotid

def Loot.Step (l : Loot) (call : LootCall) (answer : Option Stored) (l' : Loot) : Prop :=
  l.run call = (l',answer)

def MayRun (l : Loot) : LootCall → Prop
  | .storeLootItem looter player lootSlot => MayLoot l looter player lootSlot
  | .lootMasterGive looter _ slotid => MayGive l looter slotid

def storedBy (calls : List (LootCall × Option Stored)) : List Stored :=
  calls.filterMap Prod.snd

theorem Sound.run (h : Sound l given tokens counted) {call : LootCall} (hmay : MayRun l call) :
    Sound (l.run call).1 (given ++ (l.run call).2.toList) tokens counted := by
  cases call with
  | storeLootItem looter player lootSlot => exact h.storeLootItem hmay
  | lootMasterGive looter target slotid => exact h.lootMasterGive hmay

theorem Sound.runs {calls : List (LootCall × Option Stored)}
    (h : Trace.Runs (Trace.Guarded MayRun Loot.Step) l calls l') (hs : Sound l given tokens counted) :
    Sound l' (given ++ storedBy calls) tokens counted := by
  induction calls generalizing l given with
  | nil =>
    cases h
    simpa [storedBy] using hs
  | cons call calls ih =>
    obtain ⟨next,⟨hmay,hstep⟩,hrest⟩ := h
    have hnext := hs.run hmay
    rw [hstep] at hnext
    have hfinal := ih hrest hnext
    have heq : storedBy (call :: calls) = call.2.toList ++ storedBy calls := by
      obtain ⟨c,answer⟩ := call
      cases answer <;> simp [storedBy]
    rwa [heq,← List.append_assoc]

end TrinityCore.Looting
