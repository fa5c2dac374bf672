import TrinityCore.Looting.OnlyOnce

set_option autoImplicit false

namespace TrinityCore.Looting

namespace Loot

variable (l : Loot)

/-- A record of a player that is not looted, for an entry that is not. -/
def recordOpen (items : List LootItem) (x : NotNormalLootItem) : Bool :=
  items[x.index]?.any fun item => !x.isLooted && !item.isLooted

/-- There is a quest entry, one that is free for all or one with conditions for the player. -/
def hasItemFor (player : Nat) : Bool :=
  ((l.playerQuestItems player).any fun list => list.any (recordOpen l.questItems)) ||
  ((l.playerFFAItems player).any fun list => list.any (recordOpen l.items)) ||
  ((l.playerNonQuestNonFFAConditionalItems player).any fun list => list.any (recordOpen l.items))

/-- No player has an entry left, and every entry for one player without conditions is looted. -/
def NothingLeft : Prop :=
  (∀ player, l.hasItemFor player = false) ∧
    ∀ i item, l.entry (.item i) = some item → item.freeforall = false → item.conditions = [] →
      item.isLooted = true

/-- The quest entries that are loot for a player, as many as the loot window has room for. -/
def questEntriesFor (w : FillWorld) (group : Option LootGroup) (player : Nat) : List Nat :=
  (l.questItems.findIdxs (isQuestLootFor w group player)).take (maxNrLootItems-l.items.length)

/-- A quest entry for one player that is not blocked and is loot for this player is in no list of
another one. -/
def CountsOnce (w : FillWorld) (group : Option LootGroup) (player : Nat) : Prop :=
  ∀ i ∈ l.questEntriesFor w group player, ∀ item, l.entry (.quest i) = some item →
    item.freeforall = false → item.isBlocked = false →
      ∀ p list, l.playerQuestItems p = some list → ∀ y ∈ list, y.index ≠ i

def Seen (t : Token) : Prop :=
  ∃ item, l.entry t.entry = some item ∧ (t.player = none ↔ item.freeforall = false) ∧
    match t with
    | ⟨.item i,none⟩ => item.conditions = [] ∨ ∃ p list,
        l.playerNonQuestNonFFAConditionalItems p = some list ∧ ∃ x ∈ list, x.index = i
    | ⟨.quest i,none⟩ => ∃ p list, l.playerQuestItems p = some list ∧ ∃ x ∈ list, x.index = i
    | ⟨e,some p⟩ => ∃ list, l.ownList e p = some list ∧ ∃ x ∈ list, x.index = e.index

end Loot

/-- While the lists of these members are made no quest entry for one player is counted twice. -/
def OnceForMembers (w : FillWorld) (group : LootGroup) :
    Loot × List Stored → List GroupMember → Prop
  | _, [] => True
  | s, member :: members =>
    (member.isInMap = true → s.1.CountsOnce w (some group) member.guid) ∧
    OnceForMembers w group (Loot.fillMember w group s member) members

/-- While the loot is filled for the members of a group no quest entry for one player is counted
twice. -/
def OnceToFill (w : FillWorld) (rolled : List Rolled) (ownerGroup : Option LootGroup)
    (personal : Bool) : Prop :=
  ∀ group, ownerGroup = some group → personal = false →
    OnceForMembers w group (Loot.rolled w rolled,[]) group.members

/-- The tokens are what was counted, each once, and what is spent of them was given. -/
structure Exact (l : Loot) (given : List Stored) (tokens : List Token) : Prop where
  nodup : tokens.Nodup
  size : l.unlootedCount+given.length = tokens.length
  items : l.items.length ≤ maxNrLootItems
  seen : ∀ t ∈ tokens, l.Seen t
  given : ∀ t ∈ tokens, l.Spent t → t ∈ given.map Stored.token
  quest : ∀ p list x, l.playerQuestItems p = some list → x ∈ list →
    ∃ item, l.entry (.quest x.index) = some item ∧
      (x.isLooted = true → item.freeforall = false → item.isLooted = true)
  ffa : ∀ p list x, l.playerFFAItems p = some list → x ∈ list →
    ∃ item, l.entry (.item x.index) = some item ∧ item.freeforall = true
  conditional : ∀ p list x, l.playerNonQuestNonFFAConditionalItems p = some list → x ∈ list →
    ∃ item, l.entry (.item x.index) = some item ∧ item.freeforall = false ∧
      item.conditions ≠ [] ∧ item.isCounted = true ∧ (x.isLooted = true → item.isLooted = true)

variable {w : FillWorld} {group : Option LootGroup} {l l' : Loot} {given : List Stored}
  {tokens tokens' : List Token} {counted player lootSlot : Nat} {present : Bool} {slot : LootSlot}
  {x : NotNormalLootItem} {item : LootItem}

section Counter

theorem recordOpen_false {items : List LootItem} (hitem : items[x.index]? = some item)
    (h : Loot.recordOpen items x = false) : x.isLooted = true ∨ item.isLooted = true := by
  rw [Loot.recordOpen,hitem] at h
  cases hx : x.isLooted with
  | true => exact .inl rfl
  | false => exact .inr (by simpa [hx] using h)

theorem hasItemFor_false (h : l.hasItemFor player = false) :
    (∀ list x, l.playerQuestItems player = some list → x ∈ list →
      Loot.recordOpen l.questItems x = false) ∧
    (∀ list x, l.playerFFAItems player = some list → x ∈ list →
      Loot.recordOpen l.items x = false) ∧
    (∀ list x, l.playerNonQuestNonFFAConditionalItems player = some list → x ∈ list →
      Loot.recordOpen l.items x = false) := by
  unfold Loot.hasItemFor at h
  simp only [Bool.or_eq_false_iff] at h
  obtain ⟨⟨hquest,hffa⟩,hconditional⟩ := h
  refine ⟨?_,?_,?_⟩
  · intro list x hlist hx
    rw [hlist] at hquest
    simpa using List.any_eq_false.mp hquest x hx
  · intro list x hlist hx
    rw [hlist] at hffa
    simpa using List.any_eq_false.mp hffa x hx
  · intro list x hlist hx
    rw [hlist] at hconditional
    simpa using List.any_eq_false.mp hconditional x hx

theorem Exact.spent (h : Exact l given tokens)
    (hfresh : ∀ e item, l.entry e = some item → item.freeforall = true → item.isLooted = false)
    (hleft : l.NothingLeft) {t : Token} (ht : t ∈ tokens) : l.Spent t := by
  obtain ⟨hplayers,hplain⟩ := hleft
  obtain ⟨item,hitem,hone,hsees⟩ := h.seen t ht
  obtain ⟨e,o⟩ := t
  dsimp only at hitem hone
  cases o with
  | none =>
    have hffa := hone.mp rfl
    refine ⟨item,hitem,?_⟩
    cases e with
    | item i =>
      rcases hsees with hconditions | ⟨p,list,hlist,x,hx,rfl⟩
      · exact hplain i item hitem hffa hconditions
      · obtain ⟨item',hitem',-,-,-,hlooted⟩ := h.conditional p list x hlist hx
        cases hitem.symm.trans hitem'
        rcases recordOpen_false hitem ((hasItemFor_false (hplayers p)).2.2 list x hlist hx) with
          hrecord | hentry
        · exact hlooted hrecord
        · exact hentry
    | quest i =>
      obtain ⟨p,list,hlist,x,hx,rfl⟩ := hsees
      obtain ⟨item',hitem',hlooted⟩ := h.quest p list x hlist hx
      cases hitem.symm.trans hitem'
      rcases recordOpen_false hitem ((hasItemFor_false (hplayers p)).1 list x hlist hx) with
        hrecord | hentry
      · exact hlooted hrecord hffa
      · exact hentry
  | some p =>
    have hffa : item.freeforall = true := by
      cases hf : item.freeforall with
      | true => rfl
      | false => cases hone.mpr hf
    have hnot := hfresh e item hitem hffa
    cases e with
    | item i =>
      obtain ⟨list,hlist,x,hx,rfl⟩ := hsees
      refine ⟨list,hlist,x,hx,rfl,?_⟩
      have hclosed := (hasItemFor_false (hplayers p)).2.1 list x hlist hx
      exact (recordOpen_false hitem hclosed).resolve_right (by simp [hnot])
    | quest i =>
      obtain ⟨list,hlist,x,hx,rfl⟩ := hsees
      refine ⟨list,hlist,x,hx,rfl,?_⟩
      have hclosed := (hasItemFor_false (hplayers p)).1 list x hlist hx
      exact (recordOpen_false hitem hclosed).resolve_right (by simp [hnot])

theorem Exact.counter_zero (h : Exact l given tokens)
    (hfresh : ∀ e item, l.entry e = some item → item.freeforall = true → item.isLooted = false)
    (hleft : l.NothingLeft) : l.unlootedCount = 0 := by
  have hsub : tokens.Subperm (given.map Stored.token) := by
    apply h.nodup.subperm
    intro t ht
    exact h.given t ht (h.spent hfresh hleft ht)
  have hlen := hsub.length_le
  rw [List.length_map] at hlen
  have hsize := h.size
  omega

theorem Sound.nothingLeft (h : Sound l given tokens counted) (hexact : Exact l given tokens')
    (hzero : l.unlootedCount = 0) : l.NothingLeft := by
  have hspent : ∀ t ∈ tokens, l.Spent t := by
    intro t ht
    by_contra hnew
    have hpos := h.counter_pos hnew ht
    omega
  have hlooted : ∀ e item, l.entry e = some item → (⟨e,none⟩ : Token) ∈ tokens →
      item.isLooted = true := by
    intro e item hitem hmem
    obtain ⟨item',hitem',hlooted⟩ := hspent _ hmem
    cases hitem.symm.trans hitem'
    exact hlooted
  have hown : ∀ e p list x item, l.ownList e p = some list → x ∈ list → x.index = e.index →
      l.entry e = some item → x.isLooted = true ∨ item.isLooted = true := by
    intro e p list x item hlist hx hindex hitem
    have hmem := h.own e p list x item hlist hx hindex hitem
    cases hffa : item.freeforall with
    | false =>
      rw [hffa] at hmem
      exact .inr (hlooted e item hitem hmem)
    | true =>
      rw [hffa] at hmem
      obtain ⟨list',hlist',y,hy,hyindex,hylooted⟩ := hspent _ hmem
      cases hlist.symm.trans hlist'
      have hsame : y = x := List.inj_on_of_nodup_map (h.ownNodup e p list hlist) hy hx
        (hyindex.trans hindex.symm)
      exact .inl (hsame ▸ hylooted)
  have hclosed : ∀ (items : List LootItem) (x : NotNormalLootItem),
      (∀ item, items[x.index]? = some item → x.isLooted = true ∨ item.isLooted = true) →
      Loot.recordOpen items x = false := by
    intro items x hx
    unfold Loot.recordOpen
    cases hitem : items[x.index]? with
    | none => rfl
    | some item =>
      rcases hx item hitem with hlooted | hlooted <;> simp [hlooted]
  refine ⟨?_,?_⟩
  · intro p
    unfold Loot.hasItemFor
    simp only [Bool.or_eq_false_iff]
    refine ⟨⟨?_,?_⟩,?_⟩
    · cases hlist : l.playerQuestItems p with
      | none => rfl
      | some list =>
        simp only [Option.any_some,List.any_eq_false,Bool.not_eq_true]
        intro x hx
        exact hclosed _ x fun item hitem => hown (.quest x.index) p list x item hlist hx rfl hitem
    · cases hlist : l.playerFFAItems p with
      | none => rfl
      | some list =>
        simp only [Option.any_some,List.any_eq_false,Bool.not_eq_true]
        intro x hx
        exact hclosed _ x fun item hitem => hown (.item x.index) p list x item hlist hx rfl hitem
    · cases hlist : l.playerNonQuestNonFFAConditionalItems p with
      | none => rfl
      | some list =>
        simp only [Option.any_some,List.any_eq_false,Bool.not_eq_true]
        intro x hx
        apply hclosed
        intro item hitem
        obtain ⟨item',hitem',hffa,-,hcounted,-⟩ := hexact.conditional p list x hlist hx
        have heq : item = item' := Option.some.inj (hitem.symm.trans hitem')
        subst heq
        exact .inr (hlooted (.item x.index) item hitem
          (h.plain x.index item hitem hffa (.inr hcounted)))
  · intro i item hitem hffa hconditions
    exact hlooted (.item i) item hitem (h.plain i item hitem hffa (.inl hconditions))

theorem Sound.finished_iff (h : Sound l given tokens counted) (hexact : Exact l given tokens') :
    l.unlootedCount = 0 ↔ l.NothingLeft :=
  ⟨h.nothingLeft hexact,hexact.counter_zero h.fresh⟩

end Counter

section HandOut

theorem mem_setListLooted {o : Option (List NotNormalLootItem)} {pos : Option Nat}
    {list' : List NotNormalLootItem} {y : NotNormalLootItem}
    (h : Loot.setListLooted o pos = some list') (hy : y ∈ list') :
    ∃ list x, o = some list ∧ x ∈ list ∧ y.index = x.index ∧
      (y.isLooted = true → x.isLooted = true ∨ ∃ k, pos = some k ∧ list[k]? = some x) := by
  cases pos with
  | none => exact ⟨list',y,h,hy,rfl,.inl⟩
  | some k =>
    obtain ⟨list,rfl,rfl⟩ := Option.map_eq_some_iff.mp h
    obtain ⟨j,hj⟩ := List.mem_iff_getElem?.mp hy
    rw [List.getElem?_modify] at hj
    obtain ⟨x,hx,heq⟩ := Option.map_eq_some_iff.mp hj
    refine ⟨list,x,rfl,List.mem_of_getElem? hx,?_,?_⟩
    · rw [← heq]
      split <;> rfl
    · intro hlooted
      by_cases hk : k = j
      · exact .inr ⟨k,rfl,hk ▸ hx⟩
      · rw [if_neg hk] at heq
        exact .inl (heq ▸ hlooted)

theorem mem_setListLooted_of_mem {o : Option (List NotNormalLootItem)} (pos : Option Nat)
    {list : List NotNormalLootItem} (h : o = some list) (hx : x ∈ list) :
    ∃ list', Loot.setListLooted o pos = some list' ∧ ∃ y ∈ list', y.index = x.index := by
  obtain ⟨list',hlist',hlater⟩ := setListLooted_some list pos
  obtain ⟨y,hy,hxy⟩ := exists_later hlater hx
  exact ⟨list',h ▸ hlist',y,hy,hxy.index⟩

theorem lists_handOut : (l.handOut player slot).playerQuestItems =
      (l.setOwnLooted player slot).playerQuestItems ∧
    (l.handOut player slot).playerFFAItems = (l.setOwnLooted player slot).playerFFAItems ∧
    (l.handOut player slot).playerNonQuestNonFFAConditionalItems =
      (l.setOwnLooted player slot).playerNonQuestNonFFAConditionalItems := by
  have hset : (l.setLooted player slot).playerQuestItems =
        (l.setOwnLooted player slot).playerQuestItems ∧
      (l.setLooted player slot).playerFFAItems = (l.setOwnLooted player slot).playerFFAItems ∧
      (l.setLooted player slot).playerNonQuestNonFFAConditionalItems =
        (l.setOwnLooted player slot).playerNonQuestNonFFAConditionalItems := by
    unfold Loot.setLooted
    dsimp only
    split
    · exact ⟨rfl,rfl,rfl⟩
    · cases slot.entry <;> exact ⟨rfl,rfl,rfl⟩
  unfold Loot.handOut
  dsimp only
  split <;> exact hset

theorem ownList_handOut (e : Entry) (p : Nat) :
    (l.handOut player slot).ownList e p = (l.setOwnLooted player slot).ownList e p := by
  cases e with
  | item i => exact congrFun lists_handOut.2.1 p
  | quest i => exact congrFun lists_handOut.1 p

theorem conditional_handOut (p : Nat) :
    (l.handOut player slot).playerNonQuestNonFFAConditionalItems p =
      if p = player then
        Loot.setListLooted (l.playerNonQuestNonFFAConditionalItems player) slot.conditem
      else l.playerNonQuestNonFFAConditionalItems p := by
  rw [lists_handOut.2.2]
  by_cases hp : p = player <;> simp [Loot.setOwnLooted,hp]

theorem lootItemInSlot_conditem {k : Nat} (h : l.lootItemInSlot lootSlot player = some slot)
    (hk : slot.conditem = some k) {list : List NotNormalLootItem}
    (hlist : l.playerNonQuestNonFFAConditionalItems player = some list) (hx : list[k]? = some x) :
    slot.entry = .item x.index ∧ slot.item.freeforall = false := by
  have hno : ∀ {s : LootSlot}, s.conditem = none → some s ≠ some slot := by
    intro s hs heq
    rw [Option.some.inj heq,hk] at hs
    cases hs
  unfold Loot.lootItemInSlot at h
  cases hitem : l.items[lootSlot]? with
  | none =>
    rw [hitem] at h
    dsimp only at h
    split at h
    · cases h
    · split at h
      · cases h
      · split_ifs at h
        exact absurd h (hno rfl)
  | some item =>
    rw [hitem] at h
    dsimp only at h
    by_cases hffa : item.freeforall = true
    · rw [if_pos hffa] at h
      split at h
      · split_ifs at h
        exact absurd h (hno rfl)
      · split_ifs at h
        exact absurd h (hno rfl)
    · rw [if_neg hffa] at h
      by_cases hconditions : item.conditions ≠ []
      · rw [if_pos hconditions] at h
        split at h
        · rename_i pos y hplace
          split_ifs at h
          cases h
          obtain ⟨list',hlist',hy,hindex⟩ := placeOf_spec hplace
          cases hlist.symm.trans hlist'
          cases hk
          cases hx.symm.trans hy
          exact ⟨by rw [hindex],by simpa using hffa⟩
        · split_ifs at h
          exact absurd h (hno rfl)
      · rw [if_neg hconditions] at h
        split_ifs at h
        exact absurd h (hno rfl)

theorem SlotSpec.ownRecord (hspec : SlotSpec l player slot) {e : Entry} {p : Nat}
    {list' : List NotNormalLootItem} {y : NotNormalLootItem}
    (hlist : (l.handOut player slot).ownList e p = some list') (hy : y ∈ list')
    (hindex : y.index = e.index) :
    ∃ list x, l.ownList e p = some list ∧ x ∈ list ∧ x.index = e.index ∧
      (y.isLooted = true → x.isLooted = true ∨ p = player ∧ slot.entry = e) := by
  rw [ownList_handOut,ownList_setOwnLooted] at hlist
  split at hlist
  · rename_i hp
    obtain ⟨list,x,ho,hx,hxy,hlooted⟩ := mem_setListLooted hlist hy
    refine ⟨list,x,hp ▸ ho,hx,hxy.symm.trans hindex,fun hl => (hlooted hl).imp id ?_⟩
    rintro ⟨k,hk,hget⟩
    refine ⟨hp,?_⟩
    have hsame : ∀ {list₁ x₁}, l.ownList slot.entry player = some list₁ → list₁[k]? = some x₁ →
        x₁.index = slot.entry.index → l.ownList slot.entry player = l.ownList e player →
        slot.entry.index = e.index := by
      intro list₁ x₁ hlist₁ hget₁ hindex₁ hown
      cases hlist₁.symm.trans (hown.trans ho)
      cases hget.symm.trans hget₁
      exact hindex₁.symm.trans (hxy.symm.trans hindex)
    cases e with
    | item i =>
      obtain ⟨list₁,x₁,hlist₁,hget₁,hindex₁,-⟩ := hspec.own k (.inr hk)
      cases he : slot.entry with
      | item j =>
        rw [he] at hlist₁ hindex₁ hsame
        exact congrArg Entry.item (hsame hlist₁ hget₁ hindex₁ rfl)
      | quest j =>
        cases hk.symm.trans (hspec.quest j he).2
    | quest i =>
      obtain ⟨list₁,x₁,hlist₁,hget₁,hindex₁,-⟩ := hspec.own k (.inl hk)
      cases he : slot.entry with
      | quest j =>
        rw [he] at hlist₁ hindex₁ hsame
        exact congrArg Entry.quest (hsame hlist₁ hget₁ hindex₁ rfl)
      | item j =>
        cases hk.symm.trans (hspec.item j he)
  · exact ⟨list',y,hlist,hy,hindex,.inl⟩

theorem SlotSpec.seen (hspec : SlotSpec l player slot) {t : Token} (h : l.Seen t) :
    (l.handOut player slot).Seen t := by
  have hp := hspec.progress
  obtain ⟨item,hitem,hone,hsees⟩ := h
  obtain ⟨item',hitem',hlater⟩ := hp.kept _ item hitem
  have hown : ∀ {e p}, (∃ list, l.ownList e p = some list ∧ ∃ x ∈ list, x.index = e.index) →
      ∃ list, (l.handOut player slot).ownList e p = some list ∧ ∃ x ∈ list, x.index = e.index := by
    rintro e p ⟨list,hlist,x,hx,hindex⟩
    obtain ⟨list',hlist',hrecords⟩ := hp.ownKept e p list hlist
    obtain ⟨y,hy,hxy⟩ := exists_later hrecords hx
    exact ⟨list',hlist',y,hy,hxy.index.trans hindex⟩
  refine ⟨item',hitem',hlater.freeforall ▸ hone,?_⟩
  obtain ⟨e,o⟩ := t
  cases o with
  | some p =>
    cases e with
    | item i => exact hown (e := .item i) hsees
    | quest i => exact hown (e := .quest i) hsees
  | none =>
    cases e with
    | quest i =>
      obtain ⟨p,hlist⟩ := hsees
      exact ⟨p,hown (e := .quest i) hlist⟩
    | item i =>
      rcases hsees with hconditions | ⟨p,list,hlist,x,hx,hindex⟩
      · exact .inl (hlater.conditions.trans hconditions)
      · right
        refine ⟨p,?_⟩
        rw [conditional_handOut]
        split
        · rename_i heq
          obtain ⟨list',hlist',y,hy,hxy⟩ :=
            mem_setListLooted_of_mem slot.conditem (heq ▸ hlist) hx
          exact ⟨list',hlist',y,hy,hxy.trans hindex⟩
        · exact ⟨list,hlist,x,hx,hindex⟩

theorem Exact.handOut (h : Exact l given tokens) {s : Stored}
    (hs : Sound (l.handOut player slot) (given ++ [s]) tokens' counted)
    (hcount : (l.handOut player slot).unlootedCount+1 = l.unlootedCount)
    (hslot : l.lootItemInSlot lootSlot player = some slot)
    (hffa : slot.item.freeforall = true → slot.qitem = none → slot.ffaitem ≠ none)
    (htoken : s.token = ⟨slot.entry,if slot.item.freeforall then some player else none⟩) :
    Exact (l.handOut player slot) (given ++ [s]) tokens := by
  have hspec := lootItemInSlot_spec hslot
  have hp := hspec.progress
  have hspent := hspec.spent hffa
  have hlooted : ∀ {i item'}, slot.entry = i → (l.handOut player slot).entry i = some item' →
      item'.freeforall = false → item'.isLooted = true := by
    rintro i item' rfl hitem' hf
    obtain ⟨item'',hitem'',hlater⟩ := hp.kept _ _ hspec.entry
    cases hitem'.symm.trans hitem''
    rw [← hlater.freeforall,hf] at hspent
    obtain ⟨item₁,hitem₁,hl⟩ := hspent
    cases hitem₁.symm.trans hitem'
    exact hl
  refine ⟨h.nodup,?_,?_,fun t ht => hspec.seen (h.seen t ht),?_,?_,?_,?_⟩
  · rw [List.length_append,List.length_singleton,← h.size]
    omega
  · rw [length_items_handOut]
    exact h.items
  · intro t ht hafter
    rw [List.map_append,List.map_singleton,List.mem_append,List.mem_singleton,htoken]
    obtain ⟨item,hitem,hone,-⟩ := h.seen t ht
    obtain ⟨e,o⟩ := t
    cases o with
    | none =>
      have hf : item.freeforall = false := hone.mp rfl
      obtain ⟨item',hitem',hl⟩ := hafter
      rcases handOut_looted hitem' hl with hbefore | hsame
      · exact .inl (h.given _ ht hbefore)
      · have heq : slot.item = item :=
          Option.some.inj (hspec.entry.symm.trans ((congrArg l.entry hsame).trans hitem))
        rw [heq,hf,hsame]
        exact .inr rfl
    | some p =>
      obtain ⟨list',hlist',y,hy,hindex,hl⟩ := hafter
      obtain ⟨list,x,hlist,hx,hxindex,hrecord⟩ := hspec.ownRecord hlist' hy hindex
      rcases hrecord hl with hbefore | ⟨rfl,hsame⟩
      · exact .inl (h.given _ ht ⟨list,hlist,x,hx,hxindex,hbefore⟩)
      · have heq : slot.item = item :=
          Option.some.inj (hspec.entry.symm.trans ((congrArg l.entry hsame).trans hitem))
        have hf : item.freeforall = true := by
          cases hf : item.freeforall with
          | true => rfl
          | false => cases hone.mpr hf
        rw [heq,hf,hsame]
        exact .inr rfl
  · intro p list' y hlist' hy
    obtain ⟨list,x,hlist,hx,hindex,hrecord⟩ := hspec.ownRecord (e := .quest y.index) hlist' hy rfl
    obtain ⟨item,hitem,hold⟩ := h.quest p list x hlist hx
    rw [show x.index = y.index from hindex] at hitem
    obtain ⟨item',hitem',hlater⟩ := hp.kept _ item hitem
    refine ⟨item',hitem',?_⟩
    intro hl hf
    rcases hrecord hl with hbefore | ⟨-,hsame⟩
    · exact hlater.looted (hold hbefore (hlater.freeforall ▸ hf))
    · exact hlooted hsame hitem' hf
  · intro p list' y hlist' hy
    obtain ⟨list,x,hlist,hx,hindex,-⟩ := hspec.ownRecord (e := .item y.index) hlist' hy rfl
    obtain ⟨item,hitem,hf⟩ := h.ffa p list x hlist hx
    rw [show x.index = y.index from hindex] at hitem
    obtain ⟨item',hitem',hlater⟩ := hp.kept _ item hitem
    exact ⟨item',hitem',hlater.freeforall.trans hf⟩
  · intro p list' y hlist' hy
    have hrecord : ∃ list x, l.playerNonQuestNonFFAConditionalItems p = some list ∧ x ∈ list ∧
        y.index = x.index ∧
        (y.isLooted = true → x.isLooted = true ∨ slot.entry = .item x.index) := by
      rw [conditional_handOut] at hlist'
      split at hlist'
      · rename_i heq
        obtain ⟨list,x,hlist,hx,hindex,hl⟩ := mem_setListLooted hlist' hy
        refine ⟨list,x,heq ▸ hlist,hx,hindex,fun hy => (hl hy).imp id ?_⟩
        rintro ⟨k,hk,hget⟩
        exact (lootItemInSlot_conditem hslot hk hlist hget).1
      · exact ⟨list',y,hlist',hy,rfl,.inl⟩
    obtain ⟨list,x,hlist,hx,hindex,hl⟩ := hrecord
    obtain ⟨item,hitem,hf,hconditions,hcounted,hold⟩ := h.conditional p list x hlist hx
    obtain ⟨item',hitem',hlater⟩ := hp.kept _ item hitem
    rw [hindex]
    refine ⟨item',hitem',hlater.freeforall.trans hf,?_,hlater.isCounted.trans hcounted,?_⟩
    · rw [hlater.conditions]
      exact hconditions
    · intro hy
      rcases hl hy with hbefore | hsame
      · exact hlater.looted (hold hbefore)
      · exact hlooted hsame hitem' (hlater.freeforall.trans hf)

theorem Exact.storeLootItem (h : Exact l given tokens) (hs : Sound l given tokens' counted)
    {looter : Looter} (hmay : MayLoot l looter player lootSlot) :
    Exact (l.storeLootItem looter player lootSlot).1
      (given ++ (l.storeLootItem looter player lootSlot).2.toList) tokens := by
  have hnext := hs.storeLootItem hmay
  rcases storeLootItem_cases l looter player lootSlot with heq | ⟨slot,hslot,hopen,heq⟩
  · rw [heq]
    simpa using h
  · rw [heq] at hnext ⊢
    have hbefore := hs.sum
    have hafter := hnext.sum
    rw [List.length_append] at hafter
    have hone : (some (⟨slot.entry,player,slot.item.itemid,slot.item.count,
        slot.item.freeforall⟩ : Stored)).toList.length = 1 := rfl
    dsimp only at hafter
    exact h.handOut hnext (by omega) hslot (hmay slot hslot hopen).2.1 rfl

end HandOut

end TrinityCore.Looting
