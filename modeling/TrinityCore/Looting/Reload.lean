import TrinityCore.Looting.Container

set_option autoImplicit false

namespace TrinityCore.Looting

variable {w : FillWorld} {group : Option LootGroup} {l l' : Loot} {player : Nat} {present : Bool}
  {world : ContainerWorld} {g : Generated} {c c' : Container} {gain : Gain}

structure SameGoods (item item' : LootItem) : Prop where
  goods : item'.goods = item.goods
  canSave : item.canSave = true → item'.canSave = true

theorem SameGoods.refl (item : LootItem) : SameGoods item item := ⟨rfl,id⟩

theorem SameGoods.trans {item item' item'' : LootItem} (h : SameGoods item item')
    (h' : SameGoods item' item'') : SameGoods item item'' :=
  ⟨h'.goods.trans h.goods,fun hs => h'.canSave (h.canSave hs)⟩

theorem sameGoods_modify {items : List LootItem} {f : LootItem → LootItem}
    (hf : ∀ item, SameGoods item (f item)) (i : Nat) :
    List.Forall₂ SameGoods items (items.modify i f) := by
  induction items generalizing i with
  | nil => cases i <;> exact .nil
  | cons item items ih =>
    cases i with
    | zero => exact .cons (hf item) (List.forall₂_same.mpr fun x _ => .refl x)
    | succ i => exact .cons (.refl item) (ih i)

theorem sameGoods_trans {xs ys zs : List LootItem} (h : List.Forall₂ SameGoods xs ys)
    (h' : List.Forall₂ SameGoods ys zs) : List.Forall₂ SameGoods xs zs := by
  induction h generalizing zs with
  | nil => exact h'
  | cons hxy _ ih =>
    cases h' with
    | cons hyz hrest => exact .cons (hxy.trans hyz) (ih hrest)

theorem map_goods_of_sameGoods {xs ys : List LootItem} (h : List.Forall₂ SameGoods xs ys) :
    ys.map LootItem.goods = xs.map LootItem.goods := by
  induction h with
  | nil => rfl
  | cons hxy _ ih => rw [List.map_cons,List.map_cons,hxy.goods,ih]

theorem canSave_of_sameGoods {xs ys : List LootItem} (h : List.Forall₂ SameGoods xs ys)
    (hs : ∀ item ∈ xs, item.canSave = true) : ∀ item ∈ ys, item.canSave = true := by
  induction h with
  | nil => simp
  | cons hxy _ ih =>
    intro item hitem
    rcases List.mem_cons.mp hitem with rfl | hitem
    · exact hxy.canSave (hs _ List.mem_cons_self)
    · exact ih (fun x hx => hs x (List.mem_cons_of_mem _ hx)) item hitem

theorem items_handOut {slot : LootSlot} :
    List.Forall₂ SameGoods l.items (l.handOut player slot).items := by
  have hrefl : ∀ items : List LootItem, List.Forall₂ SameGoods items items :=
    fun items => List.forall₂_same.mpr fun x _ => .refl x
  have hset : List.Forall₂ SameGoods l.items (l.setLooted player slot).items := by
    unfold Loot.setLooted
    dsimp only
    split
    · exact hrefl _
    · cases slot.entry with
      | item i =>
        apply sameGoods_modify (f := fun item => { item with isLooted := true })
        exact fun item => ⟨rfl,id⟩
      | quest i => exact hrefl _
  have hmark : ∀ (l : Loot) itemID, List.Forall₂ SameGoods l.items (l.markSaved itemID).items := by
    intro l itemID
    unfold Loot.markSaved
    dsimp only
    split
    · exact hrefl _
    · apply sameGoods_modify (f := fun item => { item with canSave := true })
      exact fun item => ⟨rfl,fun _ => rfl⟩
  unfold Loot.handOut
  dsimp only
  split
  · exact sameGoods_trans hset (hmark _ _)
  · exact hset

theorem gold_handOut {slot : LootSlot} : (l.handOut player slot).gold = l.gold := by
  unfold Loot.handOut Loot.setLooted Loot.markSaved
  dsimp only
  cases slot.entry <;> split_ifs <;> rfl

theorem containerID_handOut {slot : LootSlot} :
    (l.handOut player slot).containerID = l.containerID := by
  unfold Loot.handOut Loot.setLooted Loot.markSaved
  dsimp only
  cases slot.entry <;> split_ifs <;> rfl

theorem questItems_handOut {slot : LootSlot} (h : l.questItems = []) :
    (l.handOut player slot).questItems = [] := by
  unfold Loot.handOut Loot.setLooted Loot.markSaved
  dsimp only
  cases slot.entry <;> split_ifs <;> simp [Loot.countDown,Loot.modifyEntry,Loot.setOwnLooted,h]

section Filling

structure Savable (l : Loot) (containerID gold : Nat) : Prop where
  few : l.items.length ≤ maxNrLootItems
  canSave : ∀ item ∈ l.items, item.canSave = true
  gold : l.gold = gold
  containerID : l.containerID = containerID

variable {containerID gold : Nat}

theorem canSave_stacksOf {r : Rolled} {proto : ItemTemplate} {n count : Nat} {item : LootItem}
    (h : item ∈ Loot.stacksOf r proto n count) : item.canSave = true := by
  induction n generalizing count with
  | zero => simp [Loot.stacksOf] at h
  | succ n ih =>
    rcases List.mem_cons.mp h with rfl | h
    · rfl
    · exact ih h

theorem Savable.addItem (h : Savable l containerID gold) (w : FillWorld) (r : Rolled) :
    Savable (l.addItem w r) containerID gold := by
  have hfew := h.few
  unfold Loot.addItem
  cases w.getItemTemplate r.item.itemid with
  | none => exact h
  | some proto =>
    dsimp only
    split
    · exact ⟨h.few,h.canSave,h.gold,h.containerID⟩
    · have hlen := length_rolledEntries r proto (maxNrLootItems-l.items.length)
      have hnew : Savable { l with
          items := l.items ++ Loot.rolledEntries r proto (maxNrLootItems-l.items.length) }
          containerID gold := by
        refine ⟨?_,?_,h.gold,h.containerID⟩
        · simp only [List.length_append]
          omega
        · intro item hitem
          rcases List.mem_append.mp hitem with hold | hnew
          · exact h.canSave item hold
          · exact canSave_stacksOf hnew
      split
      · exact ⟨hnew.few,hnew.canSave,hnew.gold,hnew.containerID⟩
      · exact hnew

theorem Savable.addItem_foldl (h : Savable l containerID gold) (w : FillWorld)
    (rolled : List Rolled) :
    Savable (rolled.foldl (fun l r => l.addItem w r) l) containerID gold := by
  induction rolled generalizing l with
  | nil => exact h
  | cons r rolled ih => exact ih (h.addItem w r)

theorem Savable.congr (h : Savable l containerID gold)
    (hitems : List.Forall₂ SameGoods l.items l'.items) (hgold : l'.gold = l.gold)
    (hid : l'.containerID = l.containerID) : Savable l' containerID gold where
  few := hitems.length_eq ▸ h.few
  canSave := canSave_of_sameGoods hitems h.canSave
  gold := hgold.trans h.gold
  containerID := hid.trans h.containerID

theorem items_fillConditionalFrom (w : FillWorld) (player : Nat) (present : Bool) (i : Nat)
    (items : List LootItem) :
    List.Forall₂ SameGoods items (Loot.fillConditionalFrom w player present i items).1 := by
  induction items generalizing i with
  | nil => exact .nil
  | cons item rest ih =>
    unfold Loot.fillConditionalFrom
    dsimp only
    have hitem : SameGoods item
        (if present then { item with allowedGuids := player :: item.allowedGuids } else item) := by
      split
      · exact ⟨rfl,id⟩
      · exact .refl item
    generalize (if present then { item with allowedGuids := player :: item.allowedGuids }
      else item) = item' at hitem
    split
    · split
      · exact .cons hitem (ih (i+1))
      · exact .cons (hitem.trans ⟨rfl,id⟩) (ih (i+1))
    · exact .cons (.refl item) (ih (i+1))

theorem Savable.fillLists (h : Savable l containerID gold) :
    Savable (l.fillLists w group player present) containerID gold := by
  have hrefl : ∀ items : List LootItem, List.Forall₂ SameGoods items items :=
    fun items => List.forall₂_same.mpr fun x _ => .refl x
  have hquest : ∀ {l : Loot}, Savable l containerID gold →
      Savable (l.fillQuestLoot w group player) containerID gold := by
    intro l h
    apply h.congr
    · rw [fillQuestLoot_items]
      exact hrefl _
    · unfold Loot.fillQuestLoot
      split <;> rfl
    · unfold Loot.fillQuestLoot
      split <;> rfl
  have hffa : ∀ {l : Loot}, Savable l containerID gold →
      Savable (l.fillFFALoot w player) containerID gold := by
    intro l h
    apply h.congr
    · rw [fillFFALoot_items]
      exact hrefl _
    · unfold Loot.fillFFALoot
      dsimp only
      split <;> rfl
    · unfold Loot.fillFFALoot
      dsimp only
      split <;> rfl
  have hconditional : ∀ {l : Loot}, Savable l containerID gold →
      Savable (l.fillNonQuestNonFFAConditionalLoot w player present) containerID gold :=
    fun h => h.congr (items_fillConditionalFrom w player present 0 _) rfl rfl
  have h₁ : Savable (if l.playerQuestItems player = none then l.fillQuestLoot w group player
      else l) containerID gold := by
    split
    · exact hquest h
    · exact h
  unfold Loot.fillLists
  dsimp only
  generalize (if l.playerQuestItems player = none then l.fillQuestLoot w group player else l) = l₁
    at h₁
  have h₂ : Savable (if l₁.playerFFAItems player = none then l₁.fillFFALoot w player else l₁)
      containerID gold := by
    split
    · exact hffa h₁
    · exact h₁
  generalize (if l₁.playerFFAItems player = none then l₁.fillFFALoot w player else l₁) = l₂ at h₂
  split
  · exact hconditional h₂
  · exact h₂

theorem Savable.storeCurrency {s : Loot × List Stored} (h : Savable s.1 containerID gold)
    (i : Nat) : Savable (Loot.storeCurrency w player s i).1 containerID gold := by
  unfold Loot.storeCurrency
  dsimp only
  split
  · exact h
  · split
    · rcases storeLootItem_cases s.1 (w.looter player i) player i with heq | ⟨slot,-,-,heq⟩
      · rw [heq]
        exact h
      · rw [heq]
        exact h.congr items_handOut gold_handOut containerID_handOut
    · exact h

theorem Savable.fillNotNormalLootFor {s : Loot × List Stored} (h : Savable s.1 containerID gold) :
    Savable (Loot.fillNotNormalLootFor w group player present s).1 containerID gold := by
  have hloop : ∀ (slots : List Nat) (s : Loot × List Stored), Savable s.1 containerID gold →
      Savable (slots.foldl (Loot.storeCurrency w player) s).1 containerID gold := by
    intro slots
    induction slots with
    | nil => exact fun s h => h
    | cons i slots ih => exact fun s h => ih _ (h.storeCurrency i)
  unfold Loot.fillNotNormalLootFor
  dsimp only
  split
  · exact hloop _ _ h.fillLists
  · exact h.fillLists

theorem savable_fillLoot (g : Generated) (world : ContainerWorld) :
    Savable (g.fillLoot world).1 g.guid g.gold := by
  have hempty : Savable { Loot.empty with containerID := g.guid, gold := g.gold } g.guid g.gold :=
    ⟨by simp [Loot.empty],by simp [Loot.empty],rfl,rfl⟩
  unfold Generated.fillLoot
  dsimp only
  split
  · exact hempty
  · unfold Loot.fillLoot
    dsimp only
    exact (hempty.addItem_foldl world.fill g.rolled).fillNotNormalLootFor

end Filling

namespace Container

def rowGoods (c : Container) : Goods := (c.rows.map LootRow.goods : List (Nat × Nat))

def itemGoods (c : Container) : Goods := (c.loot.items.map LootItem.goods : List (Nat × Nat))

end Container

def goodsOf (goods : Goods) (itemid : Nat) : Goods := goods.filter fun x => x.1 = itemid

structure Kept (world : ContainerWorld) (g : Generated) (c : Container) (gain : Gain) : Prop where
  rows : c.rowGoods+gain.1 = g.goods world
  money : c.money.getD 0+gain.2 = g.gold
  gold : c.destroyed = false → c.loot.gold = c.money.getD 0
  questItems : c.loot.questItems = []
  whole : ∀ itemid, goodsOf c.rowGoods itemid = 0 ∨
    goodsOf c.rowGoods itemid = goodsOf c.itemGoods itemid
  looted : c.destroyed = false → c.loot.isLooted = true → c.rows = []
  containerID : 0 < c.loot.containerID
  canSave : ∀ item ∈ c.loot.items, item.canSave = true
  few : c.loot.items.length ≤ maxNrLootItems
  template : world.template = none → c.loot.items = []

/-- What was generated can be saved as a whole: there are no quest entries, nothing was stored at
once, and something is counted if there is something. -/
structure Generated.Whole (g : Generated) (world : ContainerWorld) : Prop where
  questItems : (g.fillLoot world).1.questItems = []
  atOnce : (g.fillLoot world).2 = []
  counted : (g.fillLoot world).1.isLooted = true → (g.fillLoot world).1.items = []

/-- The entry that is looted is the only one of its item that is still saved, and all that is saved
if it is all that is counted. When the gold is looted and nothing is counted, nothing is saved any
more. The loot is saved while all of its entries still are. -/
def MayCall (c : Container) : ContainerCall → Prop
  | .autostoreLootItem looter player lootSlot =>
    ∀ slot, c.loot.lootItemInSlot lootSlot player = some slot → slot.Open looter →
      (c.rows.countP fun row => row.itemid = slot.item.itemid) = 1 ∧
      (c.loot.countDown.isLooted = true → c.rows.length = 1)
  | .lootMoney => c.loot.unlootedCount = 0 → c.rows = []
  | .itemContainerSaveLootToDB => c.loot.isLooted = false → c.rows.length = c.loot.items.length
  | _ => True

theorem rows_saved {items : List LootItem} (h : ∀ item ∈ items, item.canSave = true) :
    ((items.filter fun item => item.canSave).map LootItem.row).map LootRow.goods =
      items.map LootItem.goods := by
  rw [List.filter_eq_self.mpr h,List.map_map]
  rfl

theorem isLooted_iff : l.isLooted = true ↔ l.gold = 0 ∧ l.unlootedCount = 0 := by
  simp [Loot.isLooted]

theorem Kept.doLootRelease (h : Kept world g c gain) (hc : c.destroyed = false) :
    Kept world g c.doLootRelease gain := by
  unfold Container.doLootRelease
  split
  · rename_i hlooted
    have hrows := h.looted hc hlooted
    have hmoney : c.money.getD 0 = 0 := by
      rw [← h.gold hc]
      exact (isLooted_iff.mp hlooted).1
    have hgoods : c.rowGoods = 0 := by
      unfold Container.rowGoods
      rw [hrows]
      rfl
    exact {
      rows := by
        have heq := h.rows
        rw [hgoods] at heq
        exact heq
      money := by
        have heq := h.money
        rw [hmoney] at heq
        exact heq
      gold := by simp [Container.destroyItem]
      questItems := h.questItems
      whole := fun itemid => .inl rfl
      looted := fun _ _ => rfl
      containerID := h.containerID
      canSave := h.canSave
      few := h.few
      template := h.template }
  · exact h

theorem card_rowGoods : c.rowGoods.card = c.rows.length := by
  simp [Container.rowGoods]

theorem card_itemGoods : c.itemGoods.card = c.loot.items.length := by
  simp [Container.itemGoods]

theorem Kept.rowGoods_le (h : Kept world g c gain) : c.rowGoods ≤ c.itemGoods := by
  rw [Multiset.le_iff_count]
  intro x
  have hcount : ∀ goods : Goods, goods.count x = (goodsOf goods x.1).count x := by
    intro goods
    exact (Multiset.count_filter_of_pos (p := fun y : Nat × Nat => y.1 = x.1) rfl).symm
  rw [hcount c.rowGoods,hcount c.itemGoods]
  rcases h.whole x.1 with heq | heq
  · rw [heq]
    simp
  · rw [heq]

theorem Kept.rows_length_le (h : Kept world g c gain) : c.rows.length ≤ c.loot.items.length := by
  rw [← card_rowGoods,← card_itemGoods]
  exact Multiset.card_le_card h.rowGoods_le

theorem Kept.rows_of_template (h : Kept world g c gain) (ht : world.template = none) :
    c.rows = [] := by
  have hle := h.rows_length_le
  rw [h.template ht] at hle
  exact List.length_eq_zero_iff.mp (by simpa using hle)

theorem Kept.save (h : Kept world g c gain) (hc : c.destroyed = false)
    (hmay : MayCall c .itemContainerSaveLootToDB) :
    Kept world g c.itemContainerSaveLootToDB gain := by
  unfold Container.itemContainerSaveLootToDB
  split
  · exact h
  · rename_i hlooted
    have hlength := hmay (by simpa using hlooted)
    have hsame : c.rowGoods = c.itemGoods := by
      apply Multiset.eq_of_le_of_card_le h.rowGoods_le
      rw [card_rowGoods,card_itemGoods,hlength]
    have hrows : (((c.loot.items.filter fun item => item.canSave).map LootItem.row).map
        LootRow.goods : Goods) = c.rowGoods := by
      rw [rows_saved h.canSave,hsame]
      rfl
    have hgold := h.gold hc
    exact {
      rows := by
        have heq := h.rows
        rw [← hrows] at heq
        exact heq
      money := by
        have heq := h.money
        rw [← hgold] at heq
        dsimp only
        split
        · exact heq
        · rw [← hgold]
          exact heq
      gold := by
        intro _
        dsimp only
        split
        · rfl
        · exact hgold
      questItems := h.questItems
      whole := by
        intro itemid
        refine .inr (congrArg (goodsOf · itemid) ?_)
        exact hrows.trans hsame
      looted := fun _ hl => absurd hl hlooted
      containerID := c.guid_pos
      canSave := h.canSave
      few := h.few
      template := h.template }

theorem Kept.lootMoney (h : Kept world g c gain) (hc : c.destroyed = false)
    (hmay : MayCall c .lootMoney) : Kept world g c.lootMoney.1 (gain+(0,c.lootMoney.2)) := by
  unfold Container.lootMoney
  apply Kept.doLootRelease
  · rw [if_pos h.containerID]
    exact {
      rows := by
        rw [Prod.fst_add,add_zero]
        exact h.rows
      money := by
        have heq := h.money
        rw [← h.gold hc] at heq
        simp only [Prod.snd_add,Option.getD_none]
        omega
      gold := fun _ => rfl
      questItems := h.questItems
      whole := h.whole
      looted := fun _ hl => hmay (isLooted_iff.mp hl).2
      containerID := h.containerID
      canSave := h.canSave
      few := h.few
      template := h.template }
  · exact hc

theorem available_reload (h : Kept world g c gain) (hc : c.destroyed = false)
    {looters : List Nat} {result : List LootRow} (hresult : result.Perm c.rows) :
    (c.reload world looters result).available = c.rowGoods := by
  have hdestroyed : (c.reload world looters result).destroyed = false := hc
  unfold Container.available
  rw [hdestroyed,if_neg (by simp)]
  unfold Container.reload Container.itemContainerLoadLootFromDB Container.rowGoods
  cases ht : world.template with
  | none =>
    rw [h.rows_of_template ht]
    rfl
  | some conditionsOf =>
    apply Multiset.coe_eq_coe.mpr
    have hgoods : ((result.map fun row => row.lootItem conditionsOf looters).filter
        fun item => !item.isLooted).map LootItem.goods = result.map LootRow.goods := by
      rw [List.filter_eq_self.mpr,List.map_map]
      · rfl
      · intro item hitem
        obtain ⟨row,-,rfl⟩ := List.mem_map.mp hitem
        rfl
    dsimp only [Loot.empty,Loot.countUp]
    rw [List.nil_append,List.append_nil,hgoods]
    exact hresult.map LootRow.goods

theorem Kept.reload (h : Kept world g c gain) {looters : List Nat}
    {result : List LootRow} (hresult : result.Perm c.rows) :
    Kept world g (c.reload world looters result) gain := by
  have hlength : result.length ≤ maxNrLootItems := by
    rw [hresult.length_eq]
    exact h.rows_length_le.trans h.few
  have hlimit : maxNrLootItems = 16 := rfl
  have hgoods : ((result.map LootRow.goods : List (Nat × Nat)) : Goods) = c.rowGoods :=
    Multiset.coe_eq_coe.mpr (hresult.map LootRow.goods)
  unfold Container.reload Container.itemContainerLoadLootFromDB
  cases ht : world.template with
  | none =>
    have hrows : c.rowGoods = 0 := by
      unfold Container.rowGoods
      rw [h.rows_of_template ht]
      rfl
    exact {
      rows := h.rows
      money := h.money
      gold := fun _ => rfl
      questItems := rfl
      whole := fun itemid => .inl (by
        have heq : goodsOf c.rowGoods itemid = 0 := by rw [hrows]; rfl
        exact heq)
      looted := fun _ _ => h.rows_of_template ht
      containerID := c.guid_pos
      canSave := by simp [Loot.empty]
      few := by simp [Loot.empty]
      template := fun _ => rfl }
  | some conditionsOf =>
    exact {
      rows := h.rows
      money := h.money
      gold := fun _ => rfl
      questItems := rfl
      whole := by
        intro itemid
        refine .inr (congrArg (goodsOf · itemid) ?_)
        rw [Container.itemGoods]
        dsimp only [Loot.empty,Loot.countUp]
        rw [List.nil_append,List.map_map]
        exact hgoods.symm
      looted := by
        intro _ hl
        have hzero := (isLooted_iff.mp hl).2
        simp only [Loot.countUp,Loot.empty] at hzero
        apply List.length_eq_zero_iff.mp
        dsimp only
        rw [← hresult.length_eq]
        omega
      containerID := c.guid_pos
      canSave := by
        intro item hitem
        dsimp only [Loot.empty,Loot.countUp] at hitem
        rw [List.nil_append] at hitem
        obtain ⟨row,-,rfl⟩ := List.mem_map.mp hitem
        rfl
      few := by
        simpa [Loot.empty,Loot.countUp] using hlength
      template := by simp [ht] }

theorem countP_rows (c : Container) (itemid : Nat) :
    (c.rows.countP fun row => row.itemid = itemid) = (goodsOf c.rowGoods itemid).card := by
  unfold goodsOf Container.rowGoods
  rw [Multiset.filter_coe,Multiset.coe_card,← List.countP_eq_length_filter,List.countP_map]
  rfl

theorem rowGoods_deleteLootItem (c : Container) (itemid : Nat) :
    (c.deleteLootItem itemid).rowGoods = c.rowGoods.filter fun x => x.1 ≠ itemid := by
  unfold Container.deleteLootItem Container.rowGoods
  rw [Multiset.filter_coe,List.filter_map]
  rfl

theorem goodsOf_filter (goods : Goods) (itemid itemid' : Nat) :
    goodsOf (goods.filter fun x => x.1 ≠ itemid) itemid' =
      if itemid' = itemid then 0 else goodsOf goods itemid' := by
  unfold goodsOf
  rw [Multiset.filter_filter]
  split
  · rename_i heq
    rw [Multiset.filter_eq_nil]
    rintro x _ ⟨h,hne⟩
    exact hne (h.trans heq)
  · rename_i hne
    apply Multiset.filter_congr
    intro x _
    constructor
    · exact fun h => h.1
    · exact fun h => ⟨h,fun heq => hne (h.symm.trans heq)⟩

theorem goodsOf_add_filter (goods : Goods) (itemid : Nat) :
    goodsOf goods itemid+goods.filter (fun x => x.1 ≠ itemid) = goods :=
  Multiset.filter_add_not _ goods

theorem Kept.goodsOf_slot (h : Kept world g c gain) {lootSlot : Nat} {slot : LootSlot}
    (hslot : c.loot.lootItemInSlot lootSlot player = some slot)
    (hone : (c.rows.countP fun row => row.itemid = slot.item.itemid) = 1) :
    goodsOf c.rowGoods slot.item.itemid = {slot.item.goods} := by
  have hmem : slot.item ∈ c.loot.items := by
    have hspec := (lootItemInSlot_spec hslot).entry
    cases he : slot.entry with
    | item i =>
      rw [he] at hspec
      exact List.mem_of_getElem? hspec
    | quest i =>
      rw [he] at hspec
      have hnone : c.loot.entry (.quest i) = none := by
        simp [Loot.entry,h.questItems]
      rw [hnone] at hspec
      simp at hspec
  rw [countP_rows] at hone
  rcases h.whole slot.item.itemid with hzero | heq
  · rw [hzero] at hone
    simp at hone
  · have hin : slot.item.goods ∈ goodsOf c.rowGoods slot.item.itemid := by
      rw [heq]
      apply Multiset.mem_filter.mpr
      refine ⟨?_,rfl⟩
      exact Multiset.mem_coe.mpr (List.mem_map_of_mem hmem)
    obtain ⟨x,hx⟩ := Multiset.card_eq_one.mp hone
    rw [hx] at hin ⊢
    rw [Multiset.mem_singleton.mp hin]

theorem Kept.autostoreLootItem (h : Kept world g c gain) (hc : c.destroyed = false)
    {looter : Looter} {lootSlot : Nat} (hmay : MayCall c (.autostoreLootItem looter player lootSlot)) :
    Kept world g (c.autostoreLootItem looter player lootSlot).1
      (gain+gainOf (c.autostoreLootItem looter player lootSlot).2) := by
  unfold Container.autostoreLootItem
  rcases storeLootItem_cases c.loot looter player lootSlot with heq | ⟨slot,hslot,hopen,heq⟩
  · rw [heq]
    have hzero : gain+gainOf none = gain := add_zero gain
    dsimp only
    rw [hzero]
    exact h.doLootRelease hc
  · rw [heq]
    dsimp only
    obtain ⟨hone,hlast⟩ := hmay slot hslot hopen
    have hslotGoods := h.goodsOf_slot hslot hone
    have hid : (c.loot.handOut player slot).containerID > 0 := by
      rw [containerID_handOut]
      exact h.containerID
    rw [if_pos hid]
    have hsplit := goodsOf_add_filter c.rowGoods slot.item.itemid
    rw [hslotGoods] at hsplit
    obtain ⟨c',hc'⟩ : ∃ c', c' = Container.deleteLootItem
      { c with loot := c.loot.handOut player slot } slot.item.itemid := ⟨_,rfl⟩
    have hloot : c'.loot = c.loot.handOut player slot := by rw [hc']; rfl
    have hmoney : c'.money = c.money := by rw [hc']; rfl
    have hdestroyed : c'.destroyed = false := by rw [hc']; exact hc
    have hrows : c'.rowGoods = c.rowGoods.filter fun x => x.1 ≠ slot.item.itemid := by
      rw [hc']
      exact rowGoods_deleteLootItem _ _
    have hitems : c'.itemGoods = c.itemGoods := by
      unfold Container.itemGoods
      rw [hloot,map_goods_of_sameGoods items_handOut]
    have hcard : c'.rows.length+1 = c.rows.length := by
      rw [← card_rowGoods,← card_rowGoods,hrows,← hsplit,Multiset.card_add,
        Multiset.card_singleton,Nat.add_comm,hsplit]
    rw [← hc']
    apply Kept.doLootRelease ?_ hdestroyed
    exact {
      rows := by
        have heq := h.rows
        rw [← hsplit] at heq
        rw [← heq,hrows]
        have hgain : (gain+gainOf (some ⟨slot.entry,player,slot.item.itemid,slot.item.count,
            slot.item.freeforall⟩)).1 = gain.1+{slot.item.goods} := rfl
        rw [hgain]
        abel
      money := by
        rw [hmoney]
        exact h.money
      gold := by
        intro _
        rw [hloot,hmoney,gold_handOut]
        exact h.gold hc
      questItems := by
        rw [hloot]
        exact questItems_handOut h.questItems
      whole := by
        intro itemid
        rw [hrows,hitems,goodsOf_filter]
        split
        · exact .inl rfl
        · exact h.whole itemid
      looted := by
        intro _ hl
        rw [hloot] at hl
        have hcounted : c.loot.countDown.isLooted = true := by
          obtain ⟨hgold,hcount⟩ := isLooted_iff.mp hl
          rw [gold_handOut] at hgold
          rw [handOut_unlootedCount] at hcount
          exact isLooted_iff.mpr ⟨hgold,hcount⟩
        have hlength := hlast hcounted
        apply List.length_eq_zero_iff.mp
        omega
      containerID := by
        rw [hloot]
        exact hid
      canSave := by
        rw [hloot]
        exact canSave_of_sameGoods items_handOut h.canSave
      few := by
        rw [hloot]
        exact items_handOut.length_eq ▸ h.few
      template := by
        intro ht
        have hsame : List.Forall₂ SameGoods c.loot.items (c.loot.handOut player slot).items :=
          items_handOut
        have hlength := hsame.length_eq
        rw [h.template ht] at hlength
        rw [hloot]
        exact List.length_eq_zero_iff.mp hlength.symm }

theorem Generated.Whole.goods_eq (hw : g.Whole world) :
    g.goods world = ((g.fillLoot world).1.items.map LootItem.goods : List (Nat × Nat)) := by
  unfold Generated.goods
  rw [hw.questItems,List.append_nil]

theorem fillLoot_template (h : world.template = none) : (g.fillLoot world).1.items = [] := by
  unfold Generated.fillLoot
  simp only [h,Loot.empty]

theorem kept_sendLoot (hw : g.Whole world) : Kept world g (g.sendLoot world) 0 := by
  have hs := savable_fillLoot g world
  have hgoods := hw.goods_eq
  have hcounted := hw.counted
  have hquest := hw.questItems
  have htemplate : world.template = none → (g.fillLoot world).1.items = [] := fillLoot_template
  unfold Generated.sendLoot
  dsimp only
  generalize (g.fillLoot world).1 = l at hs hgoods hcounted hquest htemplate
  split
  · rename_i hcount
    have hlooted : l.isLooted = false := by
      rw [← Bool.not_eq_true,isLooted_iff]
      omega
    unfold Container.itemContainerSaveLootToDB
    rw [if_neg (by simpa using hlooted)]
    have hrows := rows_saved hs.canSave
    exact {
      rows := by
        rw [hgoods,← hrows]
        exact add_zero _
      money := by
        dsimp only
        rw [hs.gold]
        split
        · rfl
        · simp only [Option.getD_none,Prod.snd_zero]
          omega
      gold := by
        intro _
        dsimp only
        split
        · rfl
        · simp only [Option.getD_none]
          omega
      questItems := hquest
      whole := by
        intro itemid
        refine .inr (congrArg (goodsOf · itemid) ?_)
        exact congrArg Multiset.ofList hrows
      looted := by
        intro _ hl
        have hl' : l.isLooted = true := hl
        simp [hlooted] at hl'
      containerID := g.guid_pos
      canSave := hs.canSave
      few := hs.few
      template := htemplate }
  · rename_i hcount
    have hlooted : l.isLooted = true := by
      rw [isLooted_iff]
      omega
    have hgold := (isLooted_iff.mp hlooted).1
    exact {
      rows := by
        rw [hgoods,hcounted hlooted]
        rfl
      money := by
        rw [← hs.gold,hgold]
        rfl
      gold := fun _ => hgold
      questItems := hquest
      whole := fun _ => .inl rfl
      looted := fun _ _ => rfl
      containerID := by
        rw [hs.containerID]
        exact g.guid_pos
      canSave := hs.canSave
      few := hs.few
      template := htemplate }

theorem Kept.step {call : ContainerCall} {gain' : Gain} (h : Kept world g c gain)
    (hstep : Trace.Guarded MayCall (Container.Step world) c call gain' c') :
    Kept world g c' (gain+gain') := by
  obtain ⟨hmay,hc,hresult,hrun⟩ := hstep
  cases call with
  | autostoreLootItem looter player lootSlot =>
    cases hrun
    exact h.autostoreLootItem hc hmay
  | lootMoney =>
    cases hrun
    exact h.lootMoney hc hmay
  | doLootRelease =>
    cases hrun
    rw [add_zero]
    exact h.doLootRelease hc
  | itemContainerSaveLootToDB =>
    cases hrun
    rw [add_zero]
    exact h.save hc hmay
  | reload looters result =>
    cases hrun
    rw [add_zero]
    exact h.reload (hresult looters result rfl)

def gained (calls : List (ContainerCall × Gain)) : Gain := (calls.map Prod.snd).sum

def Generated.atOnce (g : Generated) (world : ContainerWorld) : Goods :=
  ((g.fillLoot world).2.map Stored.goods : List (Nat × Nat))

/-- What is available after a reload and what was looted are what was generated. -/
structure ReloadExact (g : Generated) (world : ContainerWorld) (c : Container) (gain : Gain) :
    Prop where
  goods : c.available+gain.1+g.atOnce world = g.goods world
  gold : c.loot.gold+gain.2 = g.gold

theorem reload_exact (world : ContainerWorld) (g : Generated) (hw : g.Whole world)
    (calls : List (ContainerCall × Gain)) (c : Container)
    (h : Trace.Runs (Trace.Guarded MayCall (Container.Step world)) (g.sendLoot world) calls c)
    (looters : List Nat) (result : List LootRow) (c' : Container)
    (hreload : Container.Step world c (.reload looters result) 0 c') :
    ReloadExact g world c' (gained calls) := by
  have hkept : Kept world g c (0+gained calls) :=
    h.accumulate (fun _ gain => gain) (fun _ _ _ _ _ hk hstep => hk.step hstep) (kept_sendLoot hw)
  rw [zero_add] at hkept
  obtain ⟨hc,hresult,hrun⟩ := hreload
  cases hrun
  have hperm := hresult looters result rfl
  have hloaded : Kept world g (c.reload world looters result) (gained calls) := hkept.reload hperm
  have hgold := hloaded.gold hc
  have hmoney := hloaded.money
  constructor
  · rw [available_reload hkept hc hperm,Generated.atOnce,hw.atOnce]
    exact (add_zero _).trans hkept.rows
  · rw [hgold]
    exact hmoney

section Example

def stackWorld : ContainerWorld := ⟨oneItemWorld,some fun _ => []⟩

def twoStacks : Generated := ⟨1,Nat.one_pos,5,oneItemRolled ++ oneItemRolled,1,none⟩

theorem not_reload_exact : ¬∀ (world : ContainerWorld) (g : Generated)
    (calls : List (ContainerCall × Gain)) (c : Container),
    Trace.Runs (Container.Step world) (g.sendLoot world) calls c →
    ∀ (looters : List Nat) (result : List LootRow) (c' : Container),
      Container.Step world c (.reload looters result) 0 c' →
        ReloadExact g world c' (gained calls) := by
  intro h
  have hexact := h stackWorld twoStacks [(.autostoreLootItem anyLooter 1 0,({(17,1)},0))] _
    ⟨_,⟨rfl,by simp,rfl⟩,rfl⟩ [] [] _
    ⟨rfl,by rintro _ _ ⟨⟩; exact .refl _,rfl⟩
  have hgoods := congrArg Multiset.card hexact.goods
  revert hgoods
  decide

theorem reload_exact_gold : ReloadExact twoStacks stackWorld
    ((twoStacks.sendLoot stackWorld).lootMoney.1.reload stackWorld []
      (twoStacks.sendLoot stackWorld).rows) (0,5) := by
  have hw : twoStacks.Whole stackWorld := ⟨rfl,rfl,by decide⟩
  exact reload_exact stackWorld twoStacks hw [(.lootMoney,(0,5))] _
    ⟨_,⟨fun h => absurd h (by decide),rfl,by simp,rfl⟩,rfl⟩ [] _ _
    ⟨rfl,by rintro _ _ ⟨⟩; exact .refl _,rfl⟩

end Example

end TrinityCore.Looting
