import TrinityCore.Looting.HandedOut

set_option autoImplicit false

namespace TrinityCore.Looting

variable {w : FillWorld} {group : Option LootGroup} {l l' : Loot} {given : List Stored}
  {tokens tokens' : List Token} {counted n player : Nat} {present : Bool}

theorem Sound.extend (h : Sound l given tokens counted)
    (hkept : ∀ e item, l.entry e = some item → ∃ item', l'.entry e = some item' ∧
      item'.freeforall = item.freeforall ∧ item'.isLooted = item.isLooted)
    (hownKept : ∀ e p list, l.ownList e p = some list → l'.ownList e p = some list)
    (hpositive : ∀ e item, l'.entry e = some item →
      item.freeforall = true ∨ item.isLooted = false → 0 < item.count)
    (hfresh : ∀ e item, l'.entry e = some item → item.freeforall = true → item.isLooted = false)
    (hnodup : ∀ e p list, l'.ownList e p = some list →
      (list.map NotNormalLootItem.index).Nodup)
    (hplain : ∀ i item, l'.entry (.item i) = some item → item.freeforall = false →
      item.conditions = [] ∨ item.isCounted = true → ⟨.item i,none⟩ ∈ tokens')
    (hown : ∀ e p list x item, l'.ownList e p = some list → x ∈ list → x.index = e.index →
      l'.entry e = some item → ⟨e,if item.freeforall then some p else none⟩ ∈ tokens')
    (hsub : tokens ⊆ tokens') (hsize : tokens'.length ≤ tokens.length+n)
    (hcount : l'.unlootedCount = l.unlootedCount+n) (hbyte : l.unlootedCount+n < 256) :
    Sound l' given tokens' (counted+n) where
  nodup := h.nodup
  known := by
    intro s hs
    obtain ⟨item,hitem,hffa⟩ := h.known s hs
    obtain ⟨item',hitem',hffa',-⟩ := hkept _ item hitem
    exact ⟨item',hitem',hffa'.trans hffa⟩
  spent := by
    intro s hs
    have hspent := h.spent s hs
    unfold Loot.Spent at hspent ⊢
    split at hspent
    · obtain ⟨item,hitem,hlooted⟩ := hspent
      obtain ⟨item',hitem',-,hlooted'⟩ := hkept _ item hitem
      exact ⟨item',hitem',hlooted'.trans hlooted⟩
    · obtain ⟨list,hlist,hx⟩ := hspent
      exact ⟨list,hownKept _ _ list hlist,hx⟩
  among := fun s hs => hsub (h.among s hs)
  made := h.made
  positive := hpositive
  fresh := hfresh
  ownNodup := hnodup
  plain := hplain
  own := hown
  size := by
    have := h.size
    omega
  byte := by omega
  sum := by
    have := h.sum
    omega

theorem sound_empty : Sound Loot.empty [] [] 0 where
  nodup := .nil
  known := by simp
  spent := by simp
  among := by simp
  made := by simp
  positive := by
    intro e item h
    cases e <;> simp [Loot.entry,Loot.empty] at h
  fresh := by
    intro e item h
    cases e <;> simp [Loot.entry,Loot.empty] at h
  ownNodup := by
    intro e p list h
    cases e <;> simp [Loot.ownList,Loot.empty] at h
  plain := by
    intro i item h
    simp [Loot.entry,Loot.empty] at h
  own := by
    intro e p list x item h
    cases e <;> simp [Loot.ownList,Loot.empty] at h
  size := le_rfl
  byte := by simp [Loot.empty]
  sum := rfl

theorem getMaxStackSize_pos (proto : ItemTemplate) : 0 < proto.getMaxStackSize := by
  unfold ItemTemplate.getMaxStackSize
  split_ifs with h <;> omega

theorem stacksOf_spec {r : Rolled} {proto : ItemTemplate} {n count : Nat}
    (hn : n ≤ count/proto.getMaxStackSize+(if count%proto.getMaxStackSize = 0 then 0 else 1))
    {item : LootItem} (h : item ∈ Loot.stacksOf r proto n count) :
    0 < item.count ∧ item.isLooted = false ∧ item.freeforall = proto.partyLoot ∧
      item.conditions = r.item.conditions ∧ item.isCounted = false ∧ item.isBlocked = false := by
  have hmax := getMaxStackSize_pos proto
  induction n generalizing count with
  | zero => simp [Loot.stacksOf] at h
  | succ n ih =>
    have hcount : 0 < count := by
      rcases Nat.eq_zero_or_pos count with rfl | hpos
      · simp at hn
      · exact hpos
    rcases List.mem_cons.mp h with rfl | h
    · exact ⟨by simp [hcount,hmax],rfl,rfl,rfl,rfl,rfl⟩
    · apply ih ?_ h
      rcases Nat.lt_or_ge count proto.getMaxStackSize with hlt | hge
      · rw [Nat.div_eq_of_lt hlt,Nat.mod_eq_of_lt hlt] at hn
        have hzero : n = 0 := by
          split_ifs at hn <;> omega
        simp [hzero]
      · obtain ⟨rest,rfl⟩ := Nat.exists_eq_add_of_le hge
        rw [Nat.add_div_left _ hmax,Nat.add_mod_left] at hn
        rw [Nat.add_sub_cancel_left]
        omega

theorem length_stacksOf (r : Rolled) (proto : ItemTemplate) (n count : Nat) :
    (Loot.stacksOf r proto n count).length = n := by
  induction n generalizing count with
  | zero => rfl
  | succ n ih => simp [Loot.stacksOf,ih]

structure RolledLoot (l : Loot) (tokens : List Token) (counted : Nat) : Prop where
  sound : Sound l [] tokens counted
  lists : ∀ e p, l.ownList e p = none
  conditional : ∀ p, l.playerNonQuestNonFFAConditionalItems p = none
  items : l.items.length ≤ maxNrLootItems
  quest : l.questItems.length ≤ Loot.maxNrQuestItems
  few : l.unlootedCount ≤ l.items.length
  unblocked : ∀ i item, l.entry (.quest i) = some item → item.isBlocked = false

theorem getElem?_append_cases {items new : List LootItem} {i : Nat} {item : LootItem}
    (h : (items ++ new)[i]? = some item) :
    items[i]? = some item ∨ (items.length ≤ i ∧ i < items.length+new.length ∧ item ∈ new) := by
  rw [List.getElem?_append] at h
  split_ifs at h with hlt
  · exact .inl h
  · obtain ⟨hbound,-⟩ := List.getElem?_eq_some_iff.mp h
    exact .inr ⟨by omega,by omega,List.mem_of_getElem? h⟩

theorem rolledEntries_spec {r : Rolled} {proto : ItemTemplate} {room : Nat} {item : LootItem}
    (h : item ∈ Loot.rolledEntries r proto room) :
    0 < item.count ∧ item.isLooted = false ∧ item.freeforall = proto.partyLoot ∧
      item.conditions = r.item.conditions ∧ item.isCounted = false ∧ item.isBlocked = false :=
  stacksOf_spec (min_le_left _ _) h

theorem length_rolledEntries (r : Rolled) (proto : ItemTemplate) (room : Nat) :
    (Loot.rolledEntries r proto room).length ≤ room := by
  unfold Loot.rolledEntries
  dsimp only
  rw [length_stacksOf]
  omega

/-- New entries are added to a loot without lists. Those that are counted get tokens. -/
theorem RolledLoot.extend (h : RolledLoot l tokens counted)
    (hkept : ∀ e item, l.entry e = some item → l'.entry e = some item)
    (hnew : ∀ e item, l'.entry e = some item → l.entry e = some item ∨
      (0 < item.count ∧ item.isLooted = false ∧ item.isBlocked = false))
    (hlists : ∀ e p, l'.ownList e p = none)
    (hconditional : ∀ p, l'.playerNonQuestNonFFAConditionalItems p = none)
    (hitems : l'.items.length ≤ maxNrLootItems)
    (hquest : l'.questItems.length ≤ Loot.maxNrQuestItems)
    (hplain : ∀ i item, l'.entry (.item i) = some item → item.freeforall = false →
      item.conditions = [] ∨ item.isCounted = true → ⟨.item i,none⟩ ∈ tokens')
    (hsub : tokens ⊆ tokens') (hsize : tokens'.length ≤ tokens.length+n)
    (hcount : l'.unlootedCount = l.unlootedCount+n) (hfew : l'.unlootedCount ≤ l'.items.length) :
    RolledLoot l' tokens' (counted+n) where
  sound := by
    have hs := h.sound
    have hlimit : maxNrLootItems = 16 := rfl
    refine hs.extend ?_ ?_ ?_ ?_ ?_ hplain ?_ hsub hsize hcount (by omega)
    · intro e item he
      exact ⟨item,hkept e item he,rfl,rfl⟩
    · intro e p list he
      simp [h.lists e p] at he
    · intro e item he hcond
      rcases hnew e item he with hold | hnew
      · exact hs.positive e item hold hcond
      · exact hnew.1
    · intro e item he hffa
      rcases hnew e item he with hold | hnew
      · exact hs.fresh e item hold hffa
      · exact hnew.2.1
    · intro e p list he
      simp [hlists e p] at he
    · intro e p list x item he
      simp [hlists e p] at he
  lists := hlists
  conditional := hconditional
  items := hitems
  quest := hquest
  few := hfew
  unblocked := by
    intro i item he
    rcases hnew _ item he with hold | hnew
    · exact h.unblocked i item hold
    · exact hnew.2.2

theorem RolledLoot.addQuest (h : RolledLoot l tokens counted) {new : List LootItem}
    (hnew : ∀ item ∈ new, 0 < item.count ∧ item.isLooted = false ∧ item.isBlocked = false)
    (hlen : new.length ≤ Loot.maxNrQuestItems-l.questItems.length) :
    RolledLoot { l with questItems := l.questItems ++ new } tokens counted := by
  have hquest := h.quest
  have hlists : ∀ e p, Loot.ownList { l with questItems := l.questItems ++ new } e p = none := by
    intro e p
    have hnone := h.lists e p
    cases e <;> exact hnone
  refine h.extend (n := 0) ?_ ?_ hlists h.conditional h.items ?_ h.sound.plain (fun _ ht => ht)
    le_rfl rfl h.few
  · intro e item he
    cases e with
    | item i => exact he
    | quest i =>
      obtain ⟨hlt,-⟩ := List.getElem?_eq_some_iff.mp he
      exact (List.getElem?_append_left hlt).trans he
  · intro e item he
    cases e with
    | item i => exact .inl he
    | quest i => exact (getElem?_append_cases he).imp id fun h => hnew item h.2.2
  · simp only [List.length_append]
    omega

def tokensFrom (start n : Nat) : List Token :=
  (List.range n).map fun k => ⟨.item (start+k),none⟩

theorem mem_tokensFrom {start n i : Nat} (h : start ≤ i) (hlt : i < start+n) :
    (⟨.item i,none⟩ : Token) ∈ tokensFrom start n := by
  apply List.mem_map.mpr
  exact ⟨i-start,List.mem_range.mpr (by omega),by simp only [Nat.add_sub_cancel' h]⟩

theorem RolledLoot.addItems (h : RolledLoot l tokens counted) (new : List LootItem) (plain : Bool)
    (hnew : ∀ item ∈ new, 0 < item.count ∧ item.isLooted = false ∧ item.isBlocked = false)
    (hplain : ∀ item ∈ new, item.freeforall = false →
      item.conditions = [] ∨ item.isCounted = true → plain = true)
    (hlen : new.length ≤ maxNrLootItems-l.items.length) :
    RolledLoot (Loot.countUp { l with items := l.items ++ new } (if plain then new.length else 0))
      (tokens ++ if plain then tokensFrom l.items.length new.length else [])
      (counted+if plain then new.length else 0) := by
  have hitems := h.items
  have hfew := h.few
  have hlimit : maxNrLootItems = 16 := rfl
  have hle : (if plain then new.length else 0) ≤ new.length := by
    split <;> omega
  have hcount : (Loot.countUp { l with items := l.items ++ new }
      (if plain then new.length else 0)).unlootedCount =
      l.unlootedCount+(if plain then new.length else 0) := by
    simp only [Loot.countUp]
    omega
  have hlists : ∀ e p, Loot.ownList (Loot.countUp { l with items := l.items ++ new }
      (if plain then new.length else 0)) e p = none := by
    intro e p
    have hnone := h.lists e p
    cases e <;> exact hnone
  refine h.extend ?_ ?_ hlists h.conditional ?_ h.quest ?_ (List.subset_append_left _ _) ?_ hcount ?_
  · intro e item he
    cases e with
    | item i =>
      obtain ⟨hlt,-⟩ := List.getElem?_eq_some_iff.mp he
      exact (List.getElem?_append_left hlt).trans he
    | quest i => exact he
  · intro e item he
    cases e with
    | item i => exact (getElem?_append_cases he).imp id fun h => hnew item h.2.2
    | quest i => exact .inl he
  · simp only [Loot.countUp,List.length_append]
    omega
  · intro i item he hffa hcond
    rcases getElem?_append_cases he with hold | ⟨hge,hlt,hmem⟩
    · exact List.mem_append_left _ (h.sound.plain i item hold hffa hcond)
    · apply List.mem_append_right
      rw [hplain item hmem hffa hcond,if_pos rfl]
      exact mem_tokensFrom hge hlt
  · rw [List.length_append]
    split <;> simp [tokensFrom]
  · rw [hcount]
    simp only [Loot.countUp,List.length_append]
    omega

theorem countUp_zero (h : l.unlootedCount < 256) : l.countUp 0 = l := by
  unfold Loot.countUp
  rw [Nat.add_zero,Nat.mod_eq_of_lt h]

theorem RolledLoot.addItem (h : RolledLoot l tokens counted) (r : Rolled) :
    ∃ tokens' counted', RolledLoot (l.addItem w r) tokens' counted' := by
  unfold Loot.addItem
  cases hproto : w.getItemTemplate r.item.itemid with
  | none => exact ⟨tokens,counted,h⟩
  | some proto =>
    dsimp only
    split
    · refine ⟨tokens,counted,h.addQuest ?_ (length_rolledEntries _ _ _)⟩
      intro item hitem
      obtain ⟨hpos,hlooted,-,-,-,hblocked⟩ := rolledEntries_spec hitem
      exact ⟨hpos,hlooted,hblocked⟩
    · have hnew : ∀ item ∈ Loot.rolledEntries r proto (maxNrLootItems-l.items.length),
          0 < item.count ∧ item.isLooted = false ∧ item.isBlocked = false := by
        intro item hitem
        obtain ⟨hpos,hlooted,-,-,-,hblocked⟩ := rolledEntries_spec hitem
        exact ⟨hpos,hlooted,hblocked⟩
      have hlen := length_rolledEntries r proto (maxNrLootItems-l.items.length)
      split
      · exact ⟨_,_,h.addItems _ true hnew (fun _ _ _ _ => rfl) hlen⟩
      · rename_i hnot
        have hzero := h.addItems _ false hnew (by
          intro item hitem hffa hcond
          obtain ⟨-,-,hf,hc,hcounted,-⟩ := rolledEntries_spec hitem
          rw [hf] at hffa
          rw [hc,hcounted] at hcond
          exact absurd ⟨by simpa using hcond,by simp [hffa]⟩ hnot) hlen
        simp only [Bool.false_eq_true,if_false] at hzero
        rw [countUp_zero] at hzero
        · exact ⟨_,_,hzero⟩
        · exact h.sound.byte

theorem rolledLoot_empty : RolledLoot Loot.empty [] 0 where
  sound := sound_empty
  lists := by
    intro e p
    cases e <;> rfl
  conditional := fun _ => rfl
  items := by simp [Loot.empty]
  quest := by simp [Loot.empty]
  few := by simp [Loot.empty]
  unblocked := by
    intro i item h
    simp [Loot.entry,Loot.empty] at h

theorem RolledLoot.addItem_foldl (h : RolledLoot l tokens counted) (rolled : List Rolled) :
    ∃ tokens' counted', RolledLoot (rolled.foldl (fun l r => l.addItem w r) l) tokens' counted' := by
  induction rolled generalizing l tokens counted with
  | nil => exact ⟨tokens,counted,h⟩
  | cons r rolled ih =>
    obtain ⟨tokens',counted',h'⟩ := h.addItem (w := w) r
    exact ih h'

structure EntryKept (item item' : LootItem) : Prop where
  itemid : item'.itemid = item.itemid
  needsQuest : item'.needsQuest = item.needsQuest
  conditions : item'.conditions = item.conditions
  freeforall : item'.freeforall = item.freeforall
  isLooted : item'.isLooted = item.isLooted
  count : item'.count = item.count
  isCounted : item.isCounted = true → item'.isCounted = true

theorem EntryKept.refl (item : LootItem) : EntryKept item item := ⟨rfl,rfl,rfl,rfl,rfl,rfl,id⟩

theorem EntryKept.allows {item item' : LootItem} (h : EntryKept item item') :
    w.allows player item' = w.allows player item := by
  simp only [FillWorld.allows,h.itemid,h.conditions,h.needsQuest]

/-- A loop over the entries from an index on, with the tokens of what it counts. It passes an entry
by, or it puts it into the list of the player and may count it. -/
inductive Pass (Kept : LootItem → LootItem → Prop)
    (Listed : Nat → LootItem → LootItem → List Token → Prop) : Nat → List LootItem →
    List LootItem × List NotNormalLootItem × Nat → List Token → Prop
  | rest {i items} (hkept : ∀ item, Kept item item) : Pass Kept Listed i items (items,[],0) []
  | skip {i item item' items result new} (hkept : Kept item item')
    (hrest : Pass Kept Listed (i+1) items result new) :
    Pass Kept Listed i (item :: items) (item' :: result.1,result.2) new
  | list {i item item' items result first new} (hlisted : Listed i item item' first)
    (hrest : Pass Kept Listed (i+1) items result new) :
    Pass Kept Listed i (item :: items)
      (item' :: result.1,⟨i,false⟩ :: result.2.1,first.length+result.2.2) (first ++ new)

section Pass

variable {Kept : LootItem → LootItem → Prop}
  {Listed : Nat → LootItem → LootItem → List Token → Prop} {i : Nat} {item : LootItem}
  {items : List LootItem} {result : List LootItem × List NotNormalLootItem × Nat}
  {new : List Token}

theorem Pass.size (h : Pass Kept Listed i items result new) : new.length = result.2.2 := by
  induction h with
  | rest => rfl
  | skip _ _ ih => exact ih
  | list _ _ ih => rw [List.length_append,ih]

theorem Pass.length (h : Pass Kept Listed i items result new) : result.1.length = items.length := by
  induction h with
  | rest => rfl
  | skip _ _ ih => simp [ih]
  | list _ _ ih => simp [ih]

theorem Pass.entry (h : Pass Kept Listed i items result new) {k : Nat} {item' : LootItem}
    (hk : result.1[k]? = some item') : ∃ item, items[k]? = some item ∧
      (Kept item item' ∨ ∃ first, Listed (i+k) item item' first ∧ first ⊆ new) := by
  induction h generalizing k with
  | rest hkept => exact ⟨item',hk,.inl (hkept item')⟩
  | @skip i _ _ _ _ _ hkept _ ih =>
    cases k with
    | zero =>
      cases hk
      exact ⟨_,rfl,.inl hkept⟩
    | succ k =>
      rw [show i+(k+1) = i+1+k by omega]
      exact ih hk
  | @list i _ _ _ _ first new hlisted _ ih =>
    cases k with
    | zero =>
      cases hk
      exact ⟨_,rfl,.inr ⟨first,hlisted,List.subset_append_left _ _⟩⟩
    | succ k =>
      obtain ⟨item,hitem,hcase⟩ := ih hk
      refine ⟨item,hitem,hcase.imp id ?_⟩
      rintro ⟨first',hlisted',hsub⟩
      rw [show i+(k+1) = i+1+k by omega]
      exact ⟨first',hlisted',fun _ ht => List.mem_append_right _ (hsub ht)⟩

theorem getElem?_cons_later {j : Nat} (hj : i+1 ≤ j) :
    (item :: items)[j-i]? = items[j-(i+1)]? := by
  rw [show j-i = (j-(i+1))+1 by omega]
  rfl

theorem Pass.record (h : Pass Kept Listed i items result new) {x : NotNormalLootItem}
    (hx : x ∈ result.2.1) : i ≤ x.index ∧ x.isLooted = false ∧ ∃ item item' first,
      items[x.index-i]? = some item ∧ result.1[x.index-i]? = some item' ∧
      Listed x.index item item' first ∧ first ⊆ new := by
  induction h with
  | rest => cases hx
  | skip _ _ ih =>
    obtain ⟨hle,hfresh,hitem⟩ := ih hx
    rw [getElem?_cons_later hle,getElem?_cons_later hle]
    exact ⟨by omega,hfresh,hitem⟩
  | @list i item item' _ _ first _ hlisted _ ih =>
    rcases List.mem_cons.mp hx with rfl | hx
    · exact ⟨le_rfl,rfl,item,item',first,by simp,by simp,hlisted,List.subset_append_left _ _⟩
    · obtain ⟨hle,hfresh,item₁,item₂,first',h₁,h₂,hlisted',hsub⟩ := ih hx
      rw [getElem?_cons_later hle,getElem?_cons_later hle]
      exact ⟨by omega,hfresh,item₁,item₂,first',h₁,h₂,hlisted',
        fun _ ht => List.mem_append_right _ (hsub ht)⟩

theorem Pass.token (h : Pass Kept Listed i items result new) {t : Token} (ht : t ∈ new) :
    ∃ x ∈ result.2.1, ∃ item item' first, items[x.index-i]? = some item ∧
      result.1[x.index-i]? = some item' ∧ Listed x.index item item' first ∧ t ∈ first := by
  induction h with
  | rest => cases ht
  | skip _ hrest ih =>
    obtain ⟨x,hx,hitem⟩ := ih ht
    have hle := (hrest.record hx).1
    refine ⟨x,hx,?_⟩
    rwa [getElem?_cons_later hle,getElem?_cons_later hle]
  | @list i item item' _ _ first _ hlisted hrest ih =>
    rcases List.mem_append.mp ht with ht | ht
    · exact ⟨⟨i,false⟩,List.mem_cons_self,item,item',first,by simp,by simp,hlisted,ht⟩
    · obtain ⟨x,hx,hitem⟩ := ih ht
      have hle := (hrest.record hx).1
      refine ⟨x,List.mem_cons_of_mem _ hx,?_⟩
      rwa [getElem?_cons_later hle,getElem?_cons_later hle]

theorem Pass.nodup_index (h : Pass Kept Listed i items result new) :
    (result.2.1.map NotNormalLootItem.index).Nodup := by
  induction h with
  | rest => exact .nil
  | skip _ _ ih => exact ih
  | list _ hrest ih =>
    refine List.nodup_cons.mpr ⟨?_,ih⟩
    intro hmem
    obtain ⟨x,hx,hindex⟩ := List.mem_map.mp hmem
    have hle := (hrest.record hx).1
    dsimp only at hindex
    omega

/-- Nothing is counted twice, if what is counted for an entry has its index and is one thing. -/
theorem Pass.nodup (h : Pass Kept Listed i items result new)
    (hone : ∀ {i item item' first}, Listed i item item' first →
      first.Nodup ∧ ∀ t ∈ first, t.entry.index = i) : new.Nodup := by
  induction h with
  | rest => exact .nil
  | skip _ _ ih => exact ih
  | list hlisted hrest ih =>
    refine List.nodup_append.mpr ⟨(hone hlisted).1,ih,?_⟩
    rintro t ht t' ht' rfl
    obtain ⟨x,hx,_,_,_,-,-,hlisted',ht'⟩ := hrest.token ht'
    have hle := (hrest.record hx).1
    have hfirst := (hone hlisted).2 t ht
    have hlater := (hone hlisted').2 t ht'
    omega

end Pass

structure QuestListed (player i : Nat) (item item' : LootItem) (first : List Token) : Prop where
  isLooted : item.isLooted = false
  marked : item' = item ∨ item' = { item with isBlocked := true }
  first : first = if item.freeforall || !item.isBlocked then
    [⟨.quest i,if item.freeforall then some player else none⟩] else []

theorem QuestListed.kept {i : Nat} {item item' : LootItem} {first : List Token}
    (h : QuestListed player i item item' first) : EntryKept item item' := by
  rcases h.marked with rfl | rfl
  · exact .refl _
  · exact ⟨rfl,rfl,rfl,rfl,rfl,rfl,id⟩

def Loot.questResult (l : Loot) (w : FillWorld) (group : Option LootGroup) (player : Nat) :
    List LootItem × List NotNormalLootItem × Nat :=
  fillQuestFrom w group player (maxNrLootItems-l.items.length) 0 l.questItems

theorem pass_fillQuestFrom (w : FillWorld) (group : Option LootGroup) (player room i : Nat)
    (items : List LootItem) : ∃ new,
      Pass Eq (QuestListed player) i items (Loot.fillQuestFrom w group player room i items) new := by
  induction items generalizing room i with
  | nil => exact ⟨[],.rest fun _ => rfl⟩
  | cons item rest ih =>
    unfold Loot.fillQuestFrom
    split
    · rename_i hlisted
      have hlooted : item.isLooted = false := by
        unfold Loot.isQuestLootFor at hlisted
        simp only [Bool.and_eq_true,Bool.not_eq_true'] at hlisted
        exact hlisted.1
      have hcounted : (if item.freeforall || !item.isBlocked then 1 else 0) =
          (if item.freeforall || !item.isBlocked then
            [(⟨.quest i,if item.freeforall then some player else none⟩ : Token)] else []).length := by
        split <;> rfl
      have hmarked : ∀ blocks : Bool, QuestListed player i item
          (if blocks then { item with isBlocked := true } else item) _ :=
        fun blocks => ⟨hlooted,by cases blocks <;> simp,rfl⟩
      dsimp only
      rw [hcounted]
      split
      · exact ⟨_,.list (hmarked _) (.rest fun _ => rfl)⟩
      · obtain ⟨new,h⟩ := ih (room-1) (i+1)
        exact ⟨_,.list (hmarked _) h⟩
    · obtain ⟨new,h⟩ := ih room (i+1)
      exact ⟨new,.skip rfl h⟩

/-- An entry that `FillNonQuestNonFFAConditionalLoot` puts into the list of the player. -/
structure ConditionalListed (i : Nat) (item item' : LootItem) (first : List Token) : Prop where
  isLooted : item.isLooted = false
  freeforall : item.freeforall = false
  conditions : item.conditions ≠ []
  kept : EntryKept item item'
  isCounted : item'.isCounted = true
  first : first = if item.isCounted then [] else [⟨.item i,none⟩]

structure ConditionalKept (item item' : LootItem) : Prop where
  kept : EntryKept item item'
  isCounted : item'.isCounted = item.isCounted

theorem pass_fillConditionalFrom (w : FillWorld) (player : Nat) (present : Bool) (i : Nat)
    (items : List LootItem) : ∃ new, Pass ConditionalKept ConditionalListed i items
      (Loot.fillConditionalFrom w player present i items) new := by
  induction items generalizing i with
  | nil => exact ⟨[],.rest fun item => ⟨.refl item,rfl⟩⟩
  | cons item rest ih =>
    obtain ⟨new,h⟩ := ih (i+1)
    unfold Loot.fillConditionalFrom
    dsimp only
    split
    · rename_i hcond
      simp only [Bool.and_eq_true,Bool.not_eq_true'] at hcond
      obtain ⟨⟨hlooted,hffa⟩,-⟩ := hcond
      have hallowed : ConditionalKept item (if present then
          { item with allowedGuids := player :: item.allowedGuids } else item) := by
        split
        · exact ⟨⟨rfl,rfl,rfl,rfl,rfl,rfl,id⟩,rfl⟩
        · exact ⟨.refl item,rfl⟩
      generalize (if present then { item with allowedGuids := player :: item.allowedGuids }
        else item) = item' at hallowed
      obtain ⟨hkept,hsame⟩ := hallowed
      split
      · exact ⟨new,.skip ⟨hkept,hsame⟩ h⟩
      · rename_i hconditions
        have hcounted : (if item.isCounted then 0 else 1) =
            (if item.isCounted then [] else [(⟨.item i,none⟩ : Token)]).length := by
          split <;> rfl
        rw [hkept.conditions] at hconditions
        rw [hsame,hcounted]
        exact ⟨_,.list ⟨hlooted,hffa,hconditions,⟨hkept.itemid,hkept.needsQuest,hkept.conditions,
          hkept.freeforall,hkept.isLooted,hkept.count,fun _ => rfl⟩,rfl,rfl⟩ h⟩
    · exact ⟨new,.skip ⟨.refl item,rfl⟩ h⟩

/-- A loot for which lists are made. Quest entries get blocked when they are counted. -/
structure Listing (l : Loot) (given : List Stored) (tokens : List Token) (counted : Nat) :
    Prop where
  sound : Sound l given tokens counted
  blocked : ∀ i item, l.entry (.quest i) = some item → item.isBlocked = true →
    item.freeforall = false → ⟨.quest i,none⟩ ∈ tokens

/-- A list is made for a player. What is put into it is counted by the new tokens, but for a quest
entry that is blocked. -/
structure Fills (l l' : Loot) (new : List Token) : Prop where
  kept : ∀ e item, l.entry e = some item → ∃ item', l'.entry e = some item'
  earlier : ∀ e item', l'.entry e = some item' → ∃ item, l.entry e = some item ∧
    EntryKept item item' ∧ (item'.isCounted = true → item.isCounted = true ∨ ⟨e,none⟩ ∈ new) ∧
    ∀ i, e = .quest i → item'.isBlocked = true → item.isBlocked = true ∨
      (item.freeforall = false → ⟨e,none⟩ ∈ new)
  ownKept : ∀ e p list, l.ownList e p = some list → l'.ownList e p = some list
  own : ∀ e p list, l'.ownList e p = some list → l.ownList e p = some list ∨
    ((list.map NotNormalLootItem.index).Nodup ∧ ∀ x item, x ∈ list → x.index = e.index →
      l.entry e = some item → ⟨e,if item.freeforall then some p else none⟩ ∈ new ∨
        item.freeforall = false ∧ item.isBlocked = true ∧ ∃ i, e = .quest i)
  count : l'.unlootedCount = l.unlootedCount+new.length

section Fills

variable {new : List Token}

theorem Fills.entry (hf : Fills l l' new) {e : Entry} {item : LootItem}
    (h : l.entry e = some item) : ∃ item', l'.entry e = some item' ∧ EntryKept item item' := by
  obtain ⟨item',hitem'⟩ := hf.kept e item h
  obtain ⟨item₁,hitem₁,hkept,-⟩ := hf.earlier e item' hitem'
  cases hitem₁.symm.trans h
  exact ⟨item',hitem',hkept⟩

theorem Fills.listing (hf : Fills l l' new) (h : Listing l given tokens counted)
    (hbyte : l.unlootedCount+new.length < 256) :
    Listing l' given (tokens ++ new) (counted+new.length) where
  sound := by
    have hs := h.sound
    refine hs.extend ?_ hf.ownKept ?_ ?_ ?_ ?_ ?_ (List.subset_append_left _ _) ?_ hf.count hbyte
    · intro e item he
      obtain ⟨item',hitem',hkept⟩ := hf.entry he
      exact ⟨item',hitem',hkept.freeforall,hkept.isLooted⟩
    · intro e item' he hcond
      obtain ⟨item,hitem,hkept,-⟩ := hf.earlier e item' he
      rw [hkept.count]
      exact hs.positive e item hitem (by rwa [← hkept.freeforall,← hkept.isLooted])
    · intro e item' he hffa
      obtain ⟨item,hitem,hkept,-⟩ := hf.earlier e item' he
      rw [hkept.isLooted]
      exact hs.fresh e item hitem (hkept.freeforall ▸ hffa)
    · intro e p list hl
      rcases hf.own e p list hl with hold | ⟨hnodup,-⟩
      · exact hs.ownNodup e p list hold
      · exact hnodup
    · intro i item' he hffa hcond
      obtain ⟨item,hitem,hkept,hcounted,-⟩ := hf.earlier _ item' he
      have hplain := hs.plain i item hitem (hkept.freeforall ▸ hffa)
      rcases hcond with hempty | hc
      · exact List.mem_append_left _ (hplain (.inl (hkept.conditions ▸ hempty)))
      · rcases hcounted hc with hold | hnew
        · exact List.mem_append_left _ (hplain (.inr hold))
        · exact List.mem_append_right _ hnew
    · intro e p list x item' hl hx hindex he
      obtain ⟨item,hitem,hkept,-⟩ := hf.earlier e item' he
      rw [hkept.freeforall]
      rcases hf.own e p list hl with hold | ⟨-,hmade⟩
      · exact List.mem_append_left _ (hs.own e p list x item hold hx hindex hitem)
      · rcases hmade x item hx hindex hitem with hnew | ⟨hffa,hblocked,i,rfl⟩
        · exact List.mem_append_right _ hnew
        · rw [hffa]
          exact List.mem_append_left _ (h.blocked i item hitem hblocked hffa)
    · rw [List.length_append]
  blocked := by
    intro i item' hi hblocked hffa
    obtain ⟨item,hitem,hkept,-,hb⟩ := hf.earlier _ item' hi
    have hffa' : item.freeforall = false := hkept.freeforall ▸ hffa
    rcases hb i rfl hblocked with hold | hnew
    · exact List.mem_append_left _ (h.blocked i item hitem hold hffa')
    · exact List.mem_append_right _ (hnew hffa')

theorem own_update {lists : Nat → Option (List NotNormalLootItem)} {ql list : List NotNormalLootItem}
    (hnone : lists player = none) :
    (if ql = [] then lists else Function.update lists player (some ql)) player = some list ↔
      list ≠ [] ∧ list = ql := by
  split
  · rename_i hempty
    rw [hnone,hempty]
    simp
  · rename_i hne
    rw [Function.update_self,Option.some.injEq]
    constructor
    · rintro rfl
      exact ⟨hne,rfl⟩
    · rintro ⟨-,rfl⟩
      rfl

theorem other_update {lists : Nat → Option (List NotNormalLootItem)} {ql : List NotNormalLootItem}
    {p : Nat} (h : p ≠ player) :
    (if ql = [] then lists else Function.update lists player (some ql)) p = lists p := by
  split
  · rfl
  · exact Function.update_of_ne h _ _

end Fills

def Loot.questCount (l : Loot) (w : FillWorld) (group : Option LootGroup) (player : Nat) : Nat :=
  if l.items.length = maxNrLootItems then 0
  else (fillQuestFrom w group player (maxNrLootItems-l.items.length) 0 l.questItems).2.2

section Quest

theorem fillQuestLoot_items : (l.fillQuestLoot w group player).items = l.items := by
  unfold Loot.fillQuestLoot
  split <;> rfl

theorem fillQuestLoot_ffa : (l.fillQuestLoot w group player).playerFFAItems = l.playerFFAItems := by
  unfold Loot.fillQuestLoot
  split <;> rfl

theorem fillQuestLoot_conditional :
    (l.fillQuestLoot w group player).playerNonQuestNonFFAConditionalItems =
      l.playerNonQuestNonFFAConditionalItems := by
  unfold Loot.fillQuestLoot
  split <;> rfl

theorem fillQuestLoot_other {p : Nat} (h : p ≠ player) :
    (l.fillQuestLoot w group player).playerQuestItems p = l.playerQuestItems p := by
  unfold Loot.fillQuestLoot
  split
  · rfl
  · exact other_update h

theorem fillQuestLoot_eq (h : l.items.length ≠ maxNrLootItems) :
    l.fillQuestLoot w group player =
      { l.countUp (l.questResult w group player).2.2 with
        questItems := (l.questResult w group player).1
        playerQuestItems := if (l.questResult w group player).2.1 = [] then l.playerQuestItems
          else Function.update l.playerQuestItems player
            (some (l.questResult w group player).2.1) } := if_neg h

theorem questCount_eq (h : l.items.length ≠ maxNrLootItems) :
    l.questCount w group player = (l.questResult w group player).2.2 := if_neg h

theorem fillQuestLoot_count (hcount : l.unlootedCount+l.questCount w group player ≤ 255) :
    (l.fillQuestLoot w group player).unlootedCount =
      l.unlootedCount+l.questCount w group player := by
  unfold Loot.fillQuestLoot Loot.questCount at *
  split
  · rfl
  · rename_i hroom
    rw [if_neg hroom] at hcount
    exact Nat.mod_eq_of_lt (Nat.lt_succ_of_le hcount)

variable {new : List Token}

theorem fills_fillQuestLoot (hroom : l.items.length ≠ maxNrLootItems)
    (hnone : l.playerQuestItems player = none)
    (hpass : Pass Eq (QuestListed player) 0 l.questItems (l.questResult w group player) new)
    (hcount : l.unlootedCount+l.questCount w group player ≤ 255) :
    Fills l (l.fillQuestLoot w group player) new := by
  rw [questCount_eq hroom] at hcount
  rw [fillQuestLoot_eq hroom]
  constructor
  · intro e item he
    cases e with
    | item i => exact ⟨item,he⟩
    | quest i =>
      obtain ⟨hlt,-⟩ := List.getElem?_eq_some_iff.mp he
      exact ⟨_,List.getElem?_eq_getElem (hpass.length ▸ hlt)⟩
  · intro e item' he
    cases e with
    | item i => exact ⟨item',he,.refl item',.inl,fun _ _ => .inl⟩
    | quest i =>
      obtain ⟨item,hitem,hcase⟩ := hpass.entry he
      refine ⟨item,hitem,?_⟩
      rcases hcase with rfl | ⟨first,hlisted,hsub⟩
      · exact ⟨.refl item,.inl,fun _ _ => .inl⟩
      · rw [Nat.zero_add] at hlisted
        refine ⟨hlisted.kept,?_,fun _ _ _ => ?_⟩
        · rcases hlisted.marked with rfl | rfl <;> exact .inl
        · cases hb : item.isBlocked with
          | true => exact .inl rfl
          | false =>
            refine .inr fun hffa => hsub ?_
            simp [hlisted.first,hffa,hb]
  · intro e p list hl
    cases e with
    | item i => exact hl
    | quest i =>
      have hp : p ≠ player := by
        rintro rfl
        cases hnone.symm.trans hl
      exact (other_update hp).trans hl
  · intro e p list hl
    cases e with
    | item i => exact .inl hl
    | quest i =>
      by_cases hp : p = player
      · subst hp
        obtain ⟨-,rfl⟩ := (own_update hnone).mp hl
        refine .inr ⟨hpass.nodup_index,?_⟩
        rintro x item hx rfl hitem
        obtain ⟨-,-,item₁,_,first,hitem₁,-,hlisted,hsub⟩ := hpass.record hx
        obtain rfl : item₁ = item := Option.some.inj (hitem₁.symm.trans hitem)
        have hfirst := hlisted.first
        cases hb : item₁.freeforall || !item₁.isBlocked with
        | true =>
          rw [hb] at hfirst
          exact .inl (hsub (hfirst ▸ List.mem_singleton_self _))
        | false =>
          simp only [Bool.or_eq_false_iff,Bool.not_eq_false'] at hb
          exact .inr ⟨hb.1,hb.2,_,rfl⟩
      · exact .inl ((other_update hp).symm.trans hl)
  · rw [hpass.size]
    exact Nat.mod_eq_of_lt (Nat.lt_succ_of_le hcount)

/-- The entries of the list of a player are not looted when the list is made. -/
def FreshQuestList (l : Loot) (player : Nat) : Prop :=
  ∀ list x item, l.playerQuestItems player = some list → x ∈ list →
    l.entry (.quest x.index) = some item → item.isLooted = false

theorem freshQuestList_fillQuestLoot (hroom : l.items.length ≠ maxNrLootItems)
    (hnone : l.playerQuestItems player = none)
    (hpass : Pass Eq (QuestListed player) 0 l.questItems (l.questResult w group player) new) :
    FreshQuestList (l.fillQuestLoot w group player) player := by
  rw [fillQuestLoot_eq hroom]
  intro list x item hl hx hitem
  obtain ⟨-,rfl⟩ := (own_update hnone).mp hl
  obtain ⟨-,-,item₁,item₂,_,-,hitem₂,hlisted,-⟩ := hpass.record hx
  cases hitem₂.symm.trans hitem
  rw [hlisted.kept.isLooted,hlisted.isLooted]

theorem Listing.fillQuestLoot (h : Listing l given tokens counted)
    (hnone : l.playerQuestItems player = none)
    (hcount : l.unlootedCount+l.questCount w group player ≤ 255) :
    ∃ tokens', Listing (l.fillQuestLoot w group player) given tokens'
        (counted+l.questCount w group player) ∧
      FreshQuestList (l.fillQuestLoot w group player) player := by
  by_cases hfull : l.items.length = maxNrLootItems
  · have heq : l.fillQuestLoot w group player = l := if_pos hfull
    have hzero : l.questCount w group player = 0 := if_pos hfull
    rw [heq,hzero]
    refine ⟨tokens,h,?_⟩
    intro list x item hl
    cases hnone.symm.trans hl
  · obtain ⟨new,hpass⟩ := pass_fillQuestFrom w group player (maxNrLootItems-l.items.length) 0
      l.questItems
    have hf := fills_fillQuestLoot hfull hnone hpass hcount
    have hsize : new.length = l.questCount w group player :=
      hpass.size.trans (questCount_eq hfull).symm
    rw [← hsize] at hcount ⊢
    exact ⟨_,hf.listing h (by omega),freshQuestList_fillQuestLoot hfull hnone hpass⟩

end Quest

def Loot.ffaCount (l : Loot) (w : FillWorld) (player : Nat) : Nat := (l.ffaList w player).length

/-- The list of a player has every entry that is free for all and allowed. -/
def FFAComplete (w : FillWorld) (l : Loot) (player : Nat) : Prop :=
  ∀ i item, l.entry (.item i) = some item → item.isLooted = false → item.freeforall = true →
    w.allows player item = true →
    ∃ list, l.playerFFAItems player = some list ∧ ∃ x ∈ list, x.index = i

theorem FFAComplete.fills {new : List Token} (h : FFAComplete w l player) (hf : Fills l l' new) :
    FFAComplete w l' player := by
  intro i item' hi hlooted hffa hallows
  obtain ⟨item,hitem,hkept,-⟩ := hf.earlier _ item' hi
  obtain ⟨list,hl,hx⟩ := h i item hitem (hkept.isLooted ▸ hlooted) (hkept.freeforall ▸ hffa)
    (hkept.allows ▸ hallows)
  exact ⟨list,hf.ownKept (.item i) player list hl,hx⟩

section FreeForAll

theorem fillFFALoot_items : (l.fillFFALoot w player).items = l.items := by
  unfold Loot.fillFFALoot
  dsimp only
  split <;> rfl

theorem fillFFALoot_quest : (l.fillFFALoot w player).playerQuestItems = l.playerQuestItems := by
  unfold Loot.fillFFALoot
  dsimp only
  split <;> rfl

theorem fillFFALoot_conditional :
    (l.fillFFALoot w player).playerNonQuestNonFFAConditionalItems =
      l.playerNonQuestNonFFAConditionalItems := by
  unfold Loot.fillFFALoot
  dsimp only
  split <;> rfl

theorem fillFFALoot_entry (e : Entry) : (l.fillFFALoot w player).entry e = l.entry e := by
  unfold Loot.fillFFALoot
  dsimp only
  split
  · rfl
  · cases e <;> rfl

theorem fillFFALoot_own : (l.fillFFALoot w player).playerFFAItems =
    if l.ffaList w player = [] then l.playerFFAItems
    else Function.update l.playerFFAItems player (some (l.ffaList w player)) := by
  unfold Loot.fillFFALoot
  dsimp only
  split <;> rfl

theorem fillFFALoot_other {p : Nat} (h : p ≠ player) :
    (l.fillFFALoot w player).playerFFAItems p = l.playerFFAItems p :=
  (congrFun fillFFALoot_own p).trans (other_update h)

theorem fillFFALoot_count (hcount : l.unlootedCount+l.ffaCount w player ≤ 255) :
    (l.fillFFALoot w player).unlootedCount = l.unlootedCount+l.ffaCount w player := by
  unfold Loot.fillFFALoot Loot.ffaCount at *
  dsimp only
  split
  · rename_i hempty
    rw [hempty]
    rfl
  · exact Nat.mod_eq_of_lt (Nat.lt_succ_of_le hcount)

theorem mem_ffaList {x : NotNormalLootItem} :
    x ∈ l.ffaList w player ↔ x.isLooted = false ∧ ∃ item, l.entry (.item x.index) = some item ∧
      item.isLooted = false ∧ item.freeforall = true ∧ w.allows player item = true := by
  unfold Loot.ffaList
  rw [List.mem_map]
  constructor
  · rintro ⟨i,hi,rfl⟩
    obtain ⟨hlt,hany⟩ := List.mem_filter.mp hi
    rw [List.mem_range] at hlt
    rw [List.getElem?_eq_getElem hlt] at hany
    refine ⟨rfl,_,List.getElem?_eq_getElem hlt,?_⟩
    simpa [and_assoc] using hany
  · rintro ⟨hx,item,hitem,hlooted,hffa,hallows⟩
    obtain ⟨hlt,-⟩ := List.getElem?_eq_some_iff.mp hitem
    refine ⟨x.index,List.mem_filter.mpr ⟨List.mem_range.mpr hlt,?_⟩,by rw [← hx]⟩
    have hget : l.items[x.index]? = some item := hitem
    simp [hget,hlooted,hffa,hallows]

theorem nodup_ffaList : ((l.ffaList w player).map NotNormalLootItem.index).Nodup := by
  unfold Loot.ffaList
  rw [List.map_map]
  have heq : NotNormalLootItem.index ∘ (fun i => (⟨i,false⟩ : NotNormalLootItem)) = id := rfl
  rw [heq,List.map_id]
  exact List.nodup_range.filter _

def Loot.ffaTokens (l : Loot) (w : FillWorld) (player : Nat) : List Token :=
  (l.ffaList w player).map fun x => ⟨.item x.index,some player⟩

theorem fills_fillFFALoot (hnone : l.playerFFAItems player = none)
    (hcount : l.unlootedCount+l.ffaCount w player ≤ 255) :
    Fills l (l.fillFFALoot w player) (l.ffaTokens w player) where
  kept := fun e item he => ⟨item,(fillFFALoot_entry e).trans he⟩
  earlier := fun e item' he =>
    ⟨item',(fillFFALoot_entry e).symm.trans he,.refl item',.inl,fun _ _ => .inl⟩
  ownKept := by
    intro e p list hl
    cases e with
    | item i =>
      have hp : p ≠ player := by
        rintro rfl
        cases hnone.symm.trans hl
      exact (fillFFALoot_other hp).trans hl
    | quest i => exact (congrFun fillFFALoot_quest p).trans hl
  own := by
    intro e p list hl
    cases e with
    | item i =>
      by_cases hp : p = player
      · subst hp
        obtain ⟨-,rfl⟩ := (own_update hnone).mp ((congrFun fillFFALoot_own p).symm.trans hl)
        refine .inr ⟨nodup_ffaList,?_⟩
        rintro x item hx rfl hitem
        obtain ⟨-,item₁,hitem₁,-,hffa,-⟩ := mem_ffaList.mp hx
        cases hitem₁.symm.trans hitem
        rw [hffa]
        exact .inl (List.mem_map.mpr ⟨x,hx,rfl⟩)
      · exact .inl ((fillFFALoot_other hp).symm.trans hl)
    | quest i => exact .inl ((congrFun fillFFALoot_quest p).symm.trans hl)
  count := by
    rw [Loot.ffaTokens,List.length_map]
    exact fillFFALoot_count hcount

theorem ffaComplete_fillFFALoot (hnone : l.playerFFAItems player = none) :
    FFAComplete w (l.fillFFALoot w player) player := by
  intro i item hitem hlooted hffa hallows
  have hmem : (⟨i,false⟩ : NotNormalLootItem) ∈ l.ffaList w player :=
    mem_ffaList.mpr ⟨rfl,item,(fillFFALoot_entry _).symm.trans hitem,hlooted,hffa,hallows⟩
  exact ⟨l.ffaList w player,(congrFun fillFFALoot_own player).trans
    ((own_update hnone).mpr ⟨List.ne_nil_of_mem hmem,rfl⟩),_,hmem,rfl⟩

end FreeForAll

def Loot.conditionalCount (l : Loot) (w : FillWorld) (player : Nat) (present : Bool) : Nat :=
  (fillConditionalFrom w player present 0 l.items).2.2

theorem fills_fillConditional {new : List Token}
    (hpass : Pass ConditionalKept ConditionalListed 0 l.items
      (Loot.fillConditionalFrom w player present 0 l.items) new)
    (hcount : l.unlootedCount+l.conditionalCount w player present ≤ 255) :
    Fills l (l.fillNonQuestNonFFAConditionalLoot w player present) new where
  kept := by
    intro e item he
    cases e with
    | item i =>
      obtain ⟨hlt,-⟩ := List.getElem?_eq_some_iff.mp he
      exact ⟨_,List.getElem?_eq_getElem (hpass.length ▸ hlt)⟩
    | quest i => exact ⟨item,he⟩
  earlier := by
    intro e item' he
    cases e with
    | item i =>
      obtain ⟨item,hitem,hcase⟩ := hpass.entry he
      refine ⟨item,hitem,?_⟩
      rcases hcase with hskip | ⟨first,hlisted,hsub⟩
      · exact ⟨hskip.kept,fun hc => .inl (hskip.isCounted ▸ hc),nofun⟩
      · rw [Nat.zero_add] at hlisted
        refine ⟨hlisted.kept,fun _ => ?_,nofun⟩
        cases hc : item.isCounted with
        | true => exact .inl rfl
        | false =>
          refine .inr (hsub ?_)
          simp [hlisted.first,hc]
    | quest i => exact ⟨item',he,.refl item',.inl,fun _ _ => .inl⟩
  ownKept := by
    intro e p list hl
    cases e <;> exact hl
  own := by
    intro e p list hl
    cases e <;> exact .inl hl
  count := by
    rw [hpass.size]
    exact Nat.mod_eq_of_lt (Nat.lt_succ_of_le hcount)

theorem fillConditional_other {p : Nat} (h : p ≠ player) :
    (l.fillNonQuestNonFFAConditionalLoot w player present).playerNonQuestNonFFAConditionalItems p =
      l.playerNonQuestNonFFAConditionalItems p := other_update h

structure NoLists (l : Loot) (player : Nat) : Prop where
  quest : l.playerQuestItems player = none
  ffa : l.playerFFAItems player = none
  conditional : l.playerNonQuestNonFFAConditionalItems player = none

def Loot.newEntries (l : Loot) (w : FillWorld) (group : Option LootGroup) (player : Nat)
    (present : Bool) : Nat :=
  l.questCount w group player+l.ffaCount w player+l.conditionalCount w player present

theorem ffaCount_fillQuestLoot :
    (l.fillQuestLoot w group player).ffaCount w player = l.ffaCount w player := by
  unfold Loot.ffaCount Loot.ffaList
  rw [fillQuestLoot_items]

theorem conditionalCount_filled :
    ((l.fillQuestLoot w group player).fillFFALoot w player).conditionalCount w player present =
      l.conditionalCount w player present := by
  unfold Loot.conditionalCount
  rw [fillFFALoot_items,fillQuestLoot_items]

theorem NoLists.ffa_filled (hnone : NoLists l player) :
    (l.fillQuestLoot w group player).playerFFAItems player = none :=
  (congrFun fillQuestLoot_ffa player).trans hnone.ffa

theorem NoLists.conditional_filled (hnone : NoLists l player) :
    ((l.fillQuestLoot w group player).fillFFALoot
      w player).playerNonQuestNonFFAConditionalItems player = none := by
  rw [fillFFALoot_conditional,fillQuestLoot_conditional,hnone.conditional]

theorem fillLists_eq (hnone : NoLists l player) : l.fillLists w group player present =
    ((l.fillQuestLoot w group player).fillFFALoot w player).fillNonQuestNonFFAConditionalLoot
      w player present := by
  simp only [Loot.fillLists,hnone.quest,if_true,hnone.ffa_filled,hnone.conditional_filled]

theorem NoLists.fillLists {p : Nat} (hp : NoLists l p) (hnone : NoLists l player)
    (hne : p ≠ player) : NoLists (l.fillLists w group player present) p := by
  rw [fillLists_eq hnone]
  constructor
  · change ((l.fillQuestLoot w group player).fillFFALoot w player).playerQuestItems p = none
    rw [fillFFALoot_quest,fillQuestLoot_other hne,hp.quest]
  · change ((l.fillQuestLoot w group player).fillFFALoot w player).playerFFAItems p = none
    rw [fillFFALoot_other hne,fillQuestLoot_ffa,hp.ffa]
  · rw [fillConditional_other hne,fillFFALoot_conditional,fillQuestLoot_conditional,
      hp.conditional]

theorem Listing.fillLists (h : Listing l given tokens counted) (hnone : NoLists l player)
    (hroom : l.unlootedCount+l.newEntries w group player present ≤ 255) :
    ∃ tokens' counted', Listing (l.fillLists w group player present) given tokens' counted' ∧
      FreshQuestList (l.fillLists w group player present) player ∧
      FFAComplete w (l.fillLists w group player present) player := by
  unfold Loot.newEntries at hroom
  rw [fillLists_eq hnone]
  have hroom₁ : l.unlootedCount+l.questCount w group player ≤ 255 := by omega
  obtain ⟨_,h₁,hfresh⟩ := h.fillQuestLoot hnone.quest hroom₁
  have hcount₁ := fillQuestLoot_count hroom₁
  have hroom₂ : (l.fillQuestLoot w group player).unlootedCount+
      (l.fillQuestLoot w group player).ffaCount w player ≤ 255 := by
    rw [ffaCount_fillQuestLoot,hcount₁]
    omega
  have hf₂ := fills_fillFFALoot hnone.ffa_filled hroom₂
  have hcount₂ := fillFFALoot_count hroom₂
  rw [ffaCount_fillQuestLoot,hcount₁] at hcount₂
  have hroom₃ : ((l.fillQuestLoot w group player).fillFFALoot w player).unlootedCount+
      ((l.fillQuestLoot w group player).fillFFALoot w player).conditionalCount w player present ≤
        255 := by
    rw [conditionalCount_filled,hcount₂]
    omega
  obtain ⟨new,hpass⟩ := pass_fillConditionalFrom w player present 0
    ((l.fillQuestLoot w group player).fillFFALoot w player).items
  have hf₃ := fills_fillConditional hpass hroom₃
  refine ⟨_,_,hf₃.listing (hf₂.listing h₁ ?_) ?_,?_,
    (ffaComplete_fillFFALoot hnone.ffa_filled).fills hf₃⟩
  · rw [Loot.ffaTokens,List.length_map]
    exact Nat.lt_succ_of_le hroom₂
  · rw [hpass.size]
    exact Nat.lt_succ_of_le hroom₃
  · intro list x item hl hx hi
    exact hfresh list x item ((congrFun fillFFALoot_quest player).symm.trans hl) hx
      ((fillFFALoot_entry _).symm.trans hi)

section Currency

variable {slot : LootSlot} {i : Nat}

theorem handOut_looted {e : Entry} {item' : LootItem}
    (h : (l.handOut player slot).entry e = some item') (hlooted : item'.isLooted = true) :
    (∃ item, l.entry e = some item ∧ item.isLooted = true) ∨ slot.entry = e := by
  by_cases he : slot.entry = e
  · exact .inr he
  left
  have hset : (l.setLooted player slot).entry e = l.entry e := by
    have hown : (l.setOwnLooted player slot).entry e = l.entry e := by
      cases e <;> rfl
    unfold Loot.setLooted
    dsimp only
    split
    · exact hown
    · rw [entry_modifyEntry,if_neg (Ne.symm he),hown]
  have hdown : (l.setLooted player slot).countDown.entry e = (l.setLooted player slot).entry e := by
    cases e <;> rfl
  have hmark : ∀ l : Loot, ∀ itemID, (l.markSaved itemID).entry e = some item' →
      ∃ item, l.entry e = some item ∧ item.isLooted = true := by
    intro l itemID hm
    unfold Loot.markSaved at hm
    cases e with
    | quest k => exact ⟨item',hm,hlooted⟩
    | item k =>
      simp only [Loot.entry] at hm
      split at hm
      · exact ⟨item',hm,hlooted⟩
      · rw [List.getElem?_modify] at hm
        obtain ⟨item,hitem,heq⟩ := Option.map_eq_some_iff.mp hm
        refine ⟨item,hitem,?_⟩
        rw [← hlooted,← heq]
        split <;> rfl
  unfold Loot.handOut at h
  dsimp only at h
  rw [← hset,← hdown]
  split at h
  · exact hmark _ _ h
  · exact ⟨item',h,hlooted⟩

theorem length_items_handOut : (l.handOut player slot).items.length = l.items.length := by
  have hset : (l.setLooted player slot).items.length = l.items.length := by
    unfold Loot.setLooted
    dsimp only
    split
    · rfl
    · cases slot.entry with
      | item i => simp [Loot.modifyEntry,Loot.setOwnLooted]
      | quest i => rfl
  have hmark : ∀ (l : Loot) itemID, (l.markSaved itemID).items.length = l.items.length := by
    intro l itemID
    unfold Loot.markSaved
    dsimp only
    split
    · rfl
    · simp
  unfold Loot.handOut
  dsimp only
  split
  · rw [hmark]
    exact hset
  · exact hset

theorem lootItemInSlot_ffa {item : LootItem} (hitem : l.entry (.item i) = some item)
    (hffa : item.freeforall = true)
    (hlist : ∃ list, l.playerFFAItems player = some list ∧ ∃ x ∈ list, x.index = i)
    (h : l.lootItemInSlot i player = some slot) :
    slot.item = item ∧ slot.qitem = none ∧ slot.ffaitem ≠ none := by
  have hget : l.items[i]? = some item := hitem
  obtain ⟨list,hl,x,hx,hindex⟩ := hlist
  have hplace : ∃ pos y, Loot.placeOf (l.playerFFAItems player) i = some (pos,y) := by
    have hfound : (list.findIdx? fun x => x.index = i).isSome := by
      rw [List.findIdx?_isSome,List.any_eq_true]
      exact ⟨x,hx,by simpa using hindex⟩
    obtain ⟨pos,hpos⟩ := Option.isSome_iff_exists.mp hfound
    obtain ⟨hlt,-⟩ := List.findIdx?_eq_some_iff_getElem.mp hpos
    refine ⟨pos,list[pos],?_⟩
    simp [Loot.placeOf,hl,hpos,hlt]
  obtain ⟨pos,y,hplace⟩ := hplace
  unfold Loot.lootItemInSlot at h
  simp only [hget,hffa,if_true,hplace] at h
  split at h
  · simp at h
  · cases h
    exact ⟨rfl,rfl,by simp⟩

theorem lootItemInSlot_item (hi : i < l.items.length)
    (h : l.lootItemInSlot i player = some slot) : slot.entry = .item i := by
  have hfound : ∀ {b : Bool} {s : LootSlot}, (if b = true then none else some s) = some slot →
      s.entry = .item i → slot.entry = .item i := by
    intro b s hs he
    cases b <;> simp_all
  unfold Loot.lootItemInSlot at h
  rw [List.getElem?_eq_getElem hi] at h
  dsimp only at h
  split at h
  · split at h <;> exact hfound h rfl
  · split at h
    · split at h <;> exact hfound h rfl
    · exact hfound h rfl

theorem lootItemInSlot_quest (hi : l.items.length ≤ i) (h : l.lootItemInSlot i player = some slot) :
    ∃ list x, l.playerQuestItems player = some list ∧ list[i-l.items.length]? = some x ∧
      slot.entry = .quest x.index ∧ slot.qitem = some (i-l.items.length) := by
  unfold Loot.lootItemInSlot at h
  rw [List.getElem?_eq_none hi] at h
  dsimp only at h
  cases hq : (l.playerQuestItems player).bind fun list => list[i-l.items.length]? with
  | none => simp [hq] at h
  | some x =>
    obtain ⟨list,hlist,hx⟩ := Option.bind_eq_some_iff.mp hq
    cases hquest : l.questItems[x.index]? with
    | none => simp [hq,hquest] at h
    | some item =>
      simp only [hq,hquest] at h
      split at h
      · simp at h
      · cases h
        exact ⟨list,x,hlist,hx,rfl,rfl⟩

/-- The quest entries of the player from a slot on are not looted. -/
def UnlootedFrom (l : Loot) (player i : Nat) : Prop :=
  ∀ pos list x item, l.playerQuestItems player = some list → list[pos]? = some x →
    i ≤ l.items.length+pos → l.entry (.quest x.index) = some item → item.isLooted = false

/-- What holds before each turn of the loop that stores the currency of a player. -/
structure Storing (w : FillWorld) (l : Loot) (given : List Stored) (tokens : List Token)
    (counted player i : Nat) : Prop where
  listing : Listing l given tokens counted
  complete : FFAComplete w l player
  unlooted : UnlootedFrom l player i

theorem Listing.progress (h : Listing l given tokens counted) (hp : Progress l l')
    {given' : List Stored} (hs : Sound l' given' tokens counted) : Listing l' given' tokens counted := by
  refine ⟨hs,?_⟩
  intro i item' hi hblocked hffa
  obtain ⟨item,hitem,hlater⟩ := hp.earlier hi
  exact h.blocked i item hitem (hlater.isBlocked ▸ hblocked) (hlater.freeforall ▸ hffa)

theorem FFAComplete.progress (h : FFAComplete w l player) (hp : Progress l l') :
    FFAComplete w l' player := by
  intro i item' hi hlooted hffa hallows
  obtain ⟨item,hitem,hlater⟩ := hp.earlier hi
  have hallows' : w.allows player item = true := by
    rw [← hallows]
    simp only [FillWorld.allows,hlater.itemid,hlater.conditions,hlater.needsQuest]
  obtain ⟨list,hl,x,hx,hindex⟩ := h i item hitem (hlater.fresh hffa ▸ hlooted)
    (hlater.freeforall ▸ hffa) hallows'
  obtain ⟨list',hl',hrecords⟩ := hp.ownKept (.item i) player list hl
  obtain ⟨y,hy,hxy⟩ := exists_later hrecords hx
  exact ⟨list',hl',y,hy,hxy.index.trans hindex⟩

theorem UnlootedFrom.succ (h : UnlootedFrom l player i) : UnlootedFrom l player (i+1) := by
  intro pos list x item hl hx hle hi
  exact h pos list x item hl hx (by omega) hi

theorem UnlootedFrom.handOut (h : UnlootedFrom l player i) (hs : Sound l given tokens counted)
    (hslot : l.lootItemInSlot i player = some slot) :
    UnlootedFrom (l.handOut player slot) player (i+1) := by
  have hspec := lootItemInSlot_spec hslot
  intro pos list' x' item' hl' hx' hle hi'
  rw [length_items_handOut] at hle
  obtain ⟨list,hl,hrecords⟩ := hspec.progress.ownEarlier (e := .quest x'.index) hl'
  obtain ⟨hpos,-⟩ := List.getElem?_eq_some_iff.mp hx'
  have hpos' : pos < list.length := hrecords.length_eq ▸ hpos
  have hx : list[pos]? = some list[pos] := List.getElem?_eq_getElem hpos'
  have hindex : x'.index = (list[pos]).index := by
    have hmap := map_index_of_later hrecords
    have h₁ : (list'.map NotNormalLootItem.index)[pos]? = some x'.index := by
      rw [List.getElem?_map,hx']
      rfl
    rw [hmap,List.getElem?_map,hx] at h₁
    exact (Option.some.inj h₁).symm
  cases hlooted : item'.isLooted with
  | false => rfl
  | true =>
    exfalso
    rcases handOut_looted hi' hlooted with ⟨item,hitem,holdLooted⟩ | hsame
    · rw [hindex] at hitem
      have hfalse := h pos list _ item hl hx (by omega) hitem
      simp [holdLooted] at hfalse
    · -- the slot is the one of this quest entry, so it was an earlier one
      rcases Nat.lt_or_ge i l.items.length with hlt | hge
      · rw [lootItemInSlot_item hlt hslot] at hsame
        simp at hsame
      · obtain ⟨list₂,x₂,hl₂,hx₂,hentry,-⟩ := lootItemInSlot_quest hge hslot
        cases hl₂.symm.trans hl
        rw [hentry] at hsame
        have hindex₂ : x₂.index = (list[pos]).index := by
          rw [← hindex]
          exact Entry.quest.inj hsame
        have hnodup := hs.ownNodup (.quest x'.index) player list hl
        have hposEq : i-l.items.length = pos := by
          obtain ⟨hlt₂,-⟩ := List.getElem?_eq_some_iff.mp hx₂
          apply (List.getElem?_inj (by simpa using hlt₂) hnodup).mp
          rw [List.getElem?_map,List.getElem?_map,hx₂,hx]
          exact congrArg some hindex₂
        omega

theorem Storing.mayLoot (h : Storing w l given tokens counted player i) (looter : Looter)
    {item : LootItem}
    (hitem : l.entry (if i < l.items.length then .item i else .quest (i-l.items.length)) = some item)
    (hlooted : item.isLooted = false) (hffa : item.freeforall = true)
    (hallows : w.allows player item = true) : MayLoot l looter player i := by
  intro slot hslot _
  split at hitem
  · obtain ⟨heq,hq,hf⟩ := lootItemInSlot_ffa hitem hffa
      (h.complete i item hitem hlooted hffa hallows) hslot
    rw [heq]
    exact ⟨hlooted,fun _ _ => hf,by simp [hffa]⟩
  · rename_i hge
    obtain ⟨list,x,hl,hx,hentry,hq⟩ := lootItemInSlot_quest (not_lt.mp hge) hslot
    have hspec := (lootItemInSlot_spec hslot).entry
    rw [hentry] at hspec
    exact ⟨h.unlooted _ list x slot.item hl hx (by omega) hspec,by simp [hq],by simp [hq]⟩

theorem Storing.storeCurrency (h : Storing w l given tokens counted player i) :
    Storing w (Loot.storeCurrency w player (l,given) i).1 (Loot.storeCurrency w player (l,given) i).2
      tokens counted player (i+1) := by
  have hskip : Storing w l given tokens counted player (i+1) :=
    ⟨h.listing,h.complete,h.unlooted.succ⟩
  unfold Loot.storeCurrency
  dsimp only
  split
  · exact hskip
  · rename_i item hitem
    split
    · rename_i hcond
      simp only [Bool.and_eq_true,Bool.not_eq_true'] at hcond
      obtain ⟨⟨⟨hlooted,hffa⟩,hallows⟩,-⟩ := hcond
      have hsound := h.listing.sound.storeLootItem
        (h.mayLoot (w.looter player i) hitem hlooted hffa hallows)
      rcases storeLootItem_cases l (w.looter player i) player i with heq | ⟨slot,hslot,-,heq⟩
      · rw [heq]
        simpa using hskip
      · rw [heq] at hsound ⊢
        have hprogress := (lootItemInSlot_spec hslot).progress
        exact ⟨h.listing.progress hprogress hsound,h.complete.progress hprogress,
          h.unlooted.handOut h.listing.sound hslot⟩
    · exact hskip

theorem Storing.loop (h : Storing w l given tokens counted player 0) (n : Nat) :
    Storing w ((List.range n).foldl (Loot.storeCurrency w player) (l,given)).1
      ((List.range n).foldl (Loot.storeCurrency w player) (l,given)).2 tokens counted player n := by
  induction n with
  | zero => exact h
  | succ n ih =>
    rw [List.range_succ,List.foldl_append]
    exact ih.storeCurrency

end Currency

theorem FreshQuestList.unlootedFrom (h : FreshQuestList l player) : UnlootedFrom l player 0 := by
  intro pos list x item hl hx _ hi
  exact h list x item hl (List.mem_of_getElem? hx) hi

theorem Listing.fillNotNormalLootFor (h : Listing l given tokens counted) (hnone : NoLists l player)
    (hroom : l.unlootedCount+l.newEntries w group player present ≤ 255) :
    ∃ tokens' counted', Listing (Loot.fillNotNormalLootFor w group player present (l,given)).1
      (Loot.fillNotNormalLootFor w group player present (l,given)).2 tokens' counted' := by
  obtain ⟨tokens',counted',hlisting,hfresh,hcomplete⟩ := h.fillLists hnone hroom
  refine ⟨tokens',counted',?_⟩
  unfold Loot.fillNotNormalLootFor
  dsimp only
  split
  · exact (Storing.loop ⟨hlisting,hcomplete,hfresh.unlootedFrom⟩ _).listing
  · exact hlisting

theorem noLists_handOut {p : Nat} {slot : LootSlot} (h : NoLists l p) (hne : p ≠ player) :
    NoLists (l.handOut player slot) p := by
  have hown : NoLists (l.setOwnLooted player slot) p :=
    ⟨by simp [Loot.setOwnLooted,hne,h.quest],by simp [Loot.setOwnLooted,hne,h.ffa],
      by simp [Loot.setOwnLooted,hne,h.conditional]⟩
  have hset : NoLists (l.setLooted player slot) p := by
    unfold Loot.setLooted
    dsimp only
    split
    · exact hown
    · cases slot.entry <;> exact ⟨hown.quest,hown.ffa,hown.conditional⟩
  unfold Loot.handOut
  dsimp only
  split <;> exact ⟨hset.quest,hset.ffa,hset.conditional⟩

theorem noLists_loop {p : Nat} {s : Loot × List Stored} (h : NoLists s.1 p) (hne : p ≠ player)
    (slots : List Nat) : NoLists (slots.foldl (Loot.storeCurrency w player) s).1 p := by
  induction slots generalizing s with
  | nil => exact h
  | cons i slots ih =>
    apply ih
    unfold Loot.storeCurrency
    dsimp only
    split
    · exact h
    · split
      · rcases storeLootItem_cases s.1 (w.looter player i) player i with heq | ⟨slot,-,-,heq⟩
        · rw [heq]
          exact h
        · rw [heq]
          exact noLists_handOut h hne
      · exact h

theorem noLists_fillNotNormalLootFor {p : Nat} (h : NoLists l p) (hnone : NoLists l player)
    (hne : p ≠ player) :
    NoLists (Loot.fillNotNormalLootFor w group player present (l,given)).1 p := by
  unfold Loot.fillNotNormalLootFor
  dsimp only
  split
  · exact noLists_loop (h.fillLists hnone hne) hne _
  · exact h.fillLists hnone hne

/-- While the lists of these members are made the counter does not come to its end. -/
def RoomForMembers (w : FillWorld) (group : LootGroup) :
    Loot × List Stored → List GroupMember → Prop
  | _, [] => True
  | s, member :: members =>
    (member.isInMap = true → s.1.unlootedCount+s.1.newEntries w (some group) member.guid
      member.isAtGroupRewardDistance ≤ 255) ∧
    RoomForMembers w group (Loot.fillMember w group s member) members

theorem Listing.fillMembers {g : LootGroup} {members : List GroupMember}
    (h : Listing l given tokens counted)
    (hnone : ∀ member ∈ members, NoLists l member.guid)
    (hnodup : (members.map GroupMember.guid).Nodup)
    (hroom : RoomForMembers w g (l,given) members) :
    ∃ tokens' counted', Listing (members.foldl (Loot.fillMember w g) (l,given)).1
      (members.foldl (Loot.fillMember w g) (l,given)).2 tokens' counted' := by
  induction members generalizing l given tokens counted with
  | nil => exact ⟨tokens,counted,h⟩
  | cons member members ih =>
    obtain ⟨hfirst,hrest⟩ := hroom
    obtain ⟨hnotin,hnodup⟩ := List.nodup_cons.mp hnodup
    rw [List.foldl_cons]
    unfold Loot.fillMember at hrest ⊢
    cases hmap : member.isInMap with
    | false =>
      simp only [hmap,Bool.false_eq_true,if_false] at hrest ⊢
      exact ih h (fun m hm => hnone m (List.mem_cons_of_mem _ hm)) hnodup hrest
    | true =>
      simp only [hmap,if_true] at hrest ⊢
      have hmember := hnone member List.mem_cons_self
      obtain ⟨tokens',counted',h'⟩ := h.fillNotNormalLootFor hmember (hfirst hmap)
      refine ih h' ?_ hnodup hrest
      intro m hm
      have hne : m.guid ≠ member.guid := by
        intro heq
        exact hnotin (heq ▸ List.mem_map.mpr ⟨m,hm,rfl⟩)
      exact noLists_fillNotNormalLootFor (hnone m (List.mem_cons_of_mem _ hm)) hmember hne

end TrinityCore.Looting
