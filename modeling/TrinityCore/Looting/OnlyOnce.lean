import TrinityCore.Looting.Filling

set_option autoImplicit false

namespace TrinityCore.Looting

variable {w : FillWorld} {group : Option LootGroup} {l l' : Loot} {given : List Stored}
  {tokens : List Token} {counted player : Nat} {present : Bool}

theorem fillQuestFrom_count_le (w : FillWorld) (group : Option LootGroup) (player room i : Nat)
    (items : List LootItem) :
    (Loot.fillQuestFrom w group player room i items).2.2 ≤ items.length := by
  induction items generalizing room i with
  | nil => simp [Loot.fillQuestFrom]
  | cons item rest ih =>
    unfold Loot.fillQuestFrom
    have hcounted : (if item.freeforall || !item.isBlocked then 1 else 0) ≤ 1 := by
      split <;> omega
    have hrest := ih (room-1) (i+1)
    have hskip := ih room (i+1)
    rw [List.length_cons]
    split
    · dsimp only
      split
      · dsimp only
        omega
      · dsimp only
        omega
    · dsimp only
      omega

theorem fillConditionalFrom_count_le (w : FillWorld) (player : Nat) (present : Bool) (i : Nat)
    (items : List LootItem) :
    (Loot.fillConditionalFrom w player present i items).2.2 ≤ items.length := by
  induction items generalizing i with
  | nil => simp [Loot.fillConditionalFrom]
  | cons item rest ih =>
    unfold Loot.fillConditionalFrom
    have hrest := ih (i+1)
    rw [List.length_cons]
    dsimp only
    generalize (if present then { item with allowedGuids := player :: item.allowedGuids }
      else item) = item'
    have hcounted : (if item'.isCounted then 0 else 1) ≤ 1 := by
      split <;> omega
    split
    · split
      · dsimp only
        omega
      · dsimp only
        omega
    · dsimp only
      omega

theorem RolledLoot.room (h : RolledLoot l tokens counted) (w : FillWorld)
    (group : Option LootGroup) (player : Nat) (present : Bool) :
    l.unlootedCount+l.newEntries w group player present ≤ 255 := by
  have hquest : l.questCount w group player ≤ l.questItems.length := by
    unfold Loot.questCount
    split
    · omega
    · exact fillQuestFrom_count_le w group player _ 0 l.questItems
  have hffa : l.ffaCount w player ≤ l.items.length := by
    unfold Loot.ffaCount Loot.ffaList
    rw [List.length_map]
    simpa using List.length_filter_le _ (List.range l.items.length)
  have hconditional : l.conditionalCount w player present ≤ l.items.length :=
    fillConditionalFrom_count_le w player present 0 l.items
  have hfew := h.few
  have hitems : l.items.length ≤ 16 := h.items
  have hlength : l.questItems.length ≤ 32 := h.quest
  unfold Loot.newEntries
  omega

theorem RolledLoot.listing (h : RolledLoot l tokens counted) : Listing l [] tokens counted := by
  refine ⟨h.sound,?_⟩
  intro i item hi hblocked
  simp [h.unblocked i item hi] at hblocked

theorem RolledLoot.noLists (h : RolledLoot l tokens counted) (p : Nat) : NoLists l p :=
  ⟨h.lists (.quest 0) p,h.lists (.item 0) p,h.conditional p⟩

theorem entry_setUnderthreshold {g : LootGroup} {e : Entry} {item' : LootItem}
    (h : (l.setUnderthreshold w g).entry e = some item') :
    ∃ item, l.entry e = some item ∧
      (item' = item ∨ item' = { item with isUnderthreshold := true }) := by
  cases e with
  | item i =>
    simp only [Loot.setUnderthreshold,Loot.entry,List.getElem?_map] at h
    obtain ⟨item,hitem,heq⟩ := Option.map_eq_some_iff.mp h
    refine ⟨item,hitem,?_⟩
    split at heq
    · exact .inr heq.symm
    · exact .inl heq.symm
  | quest i => exact ⟨item',h,.inl rfl⟩

theorem entry_setUnderthreshold_kept {e : Entry} {item : LootItem} (h : l.entry e = some item)
    (w : FillWorld) (g : LootGroup) :
    ∃ item', (l.setUnderthreshold w g).entry e = some item' ∧
      item'.freeforall = item.freeforall ∧ item'.isLooted = item.isLooted := by
  cases e with
  | item i =>
    have hi : l.items[i]? = some item := h
    simp only [Loot.setUnderthreshold,Loot.entry,List.getElem?_map,hi,Option.map_some]
    refine ⟨_,rfl,?_,?_⟩
    · split <;> rfl
    · split <;> rfl
  | quest i => exact ⟨item,h,rfl,rfl⟩

theorem Sound.setUnderthreshold (h : Sound l given tokens counted) (w : FillWorld)
    (g : LootGroup) : Sound (l.setUnderthreshold w g) given tokens counted := by
  have hlists : ∀ e p list, (l.setUnderthreshold w g).ownList e p = some list →
      l.ownList e p = some list := by
    intro e p list hl
    cases e <;> exact hl
  refine h.extend (n := 0) ?_ ?_ ?_ ?_ ?_ ?_ ?_ (fun _ ht => ht) le_rfl rfl h.byte
  · intro e item he
    exact entry_setUnderthreshold_kept he w g
  · intro e p list hl
    cases e <;> exact hl
  · intro e item' he hcond
    obtain ⟨item,hitem,rfl | rfl⟩ := entry_setUnderthreshold he
    · exact h.positive e _ hitem hcond
    · exact h.positive e item hitem hcond
  · intro e item' he hffa
    obtain ⟨item,hitem,rfl | rfl⟩ := entry_setUnderthreshold he
    · exact h.fresh e _ hitem hffa
    · exact h.fresh e item hitem hffa
  · intro e p list hl
    exact h.ownNodup e p list (hlists e p list hl)
  · intro i item' he hffa hcond
    obtain ⟨item,hitem,rfl | rfl⟩ := entry_setUnderthreshold he
    · exact h.plain i _ hitem hffa hcond
    · exact h.plain i item hitem hffa hcond
  · intro e p list x item' hl hx hindex he
    obtain ⟨item,hitem,rfl | rfl⟩ := entry_setUnderthreshold he
    · exact h.own e p list x _ (hlists e p list hl) hx hindex hitem
    · exact h.own e p list x item (hlists e p list hl) hx hindex hitem

def Loot.rolled (w : FillWorld) (rolled : List Rolled) : Loot :=
  rolled.foldl (fun l r => l.addItem w r) empty

/-- While the loot is filled for the members of a group the counter does not come to its end. -/
def RoomToFill (w : FillWorld) (rolled : List Rolled) (ownerGroup : Option LootGroup)
    (personal : Bool) : Prop :=
  ∀ group, ownerGroup = some group → personal = false →
    RoomForMembers w group (Loot.rolled w rolled,[]) group.members

theorem sound_fillLoot (w : FillWorld) (rolled : List Rolled) (lootOwner : Nat)
    (ownerGroup : Option LootGroup) (personal : Bool)
    (hroom : RoomToFill w rolled ownerGroup personal) :
    ∃ tokens counted, Sound (Loot.empty.fillLoot w rolled lootOwner ownerGroup personal).1
      (Loot.empty.fillLoot w rolled lootOwner ownerGroup personal).2 tokens counted := by
  obtain ⟨tokens,counted,h⟩ := rolledLoot_empty.addItem_foldl (w := w) rolled
  unfold Loot.fillLoot
  dsimp only
  split
  · rename_i g hgroup
    obtain ⟨hpersonal,hg⟩ : personal = false ∧ ownerGroup = some g := by
      split at hgroup
      · simp at hgroup
      · exact ⟨by simp_all,hgroup⟩
    obtain ⟨tokens',counted',hlisting⟩ := h.listing.fillMembers (g := g)
      (fun member _ => h.noLists member.guid) g.nodup (hroom g hg hpersonal)
    exact ⟨tokens',counted',hlisting.sound.setUnderthreshold w g⟩
  · obtain ⟨tokens',counted',hlisting⟩ := h.listing.fillNotNormalLootFor
      (h.noLists lootOwner) (h.room w ownerGroup lootOwner true)
    exact ⟨tokens',counted',hlisting.sound⟩

def timesGiven (given : List Stored) (e : Entry) : Nat := given.countP fun s => s.entry = e

def timesGivenTo (given : List Stored) (e : Entry) (player : Nat) : Nat :=
  given.countP fun s => s.entry = e ∧ s.player = player

theorem countP_le_one {gifts : List Stored} {p : Stored → Bool} {t : Token}
    (hnodup : (gifts.map Stored.token).Nodup) (hp : ∀ s ∈ gifts, p s = true → s.token = t) :
    gifts.countP p ≤ 1 := by
  have hle : gifts.countP p ≤ gifts.countP (fun s => decide (s.token = t)) := by
    apply List.countP_mono_left
    intro s hs hps
    simpa using hp s hs hps
  have hcount : gifts.countP (fun s => decide (s.token = t)) = (gifts.map Stored.token).count t := by
    rw [List.count,List.countP_map]
    congr 1
  have hone := List.nodup_iff_count_le_one.mp hnodup t
  omega

theorem Sound.once (h : Sound l given tokens counted) {e : Entry} {item : LootItem}
    (he : l.entry e = some item) (hffa : item.freeforall = false) : timesGiven given e ≤ 1 := by
  apply countP_le_one (t := ⟨e,none⟩) h.nodup
  intro s hs hp
  obtain ⟨item',hitem',hf⟩ := h.known s hs
  have hentry : s.entry = e := by simpa using hp
  rw [hentry,he] at hitem'
  cases hitem'
  simp [Stored.token,hentry,← hf,hffa]

theorem Sound.once_each (h : Sound l given tokens counted) {e : Entry} {item : LootItem}
    (he : l.entry e = some item) (hffa : item.freeforall = true) (player : Nat) :
    timesGivenTo given e player ≤ 1 := by
  apply countP_le_one (t := ⟨e,some player⟩) h.nodup
  intro s hs hp
  obtain ⟨item',hitem',hf⟩ := h.known s hs
  obtain ⟨hentry,hplayer⟩ : s.entry = e ∧ s.player = player := by simpa using hp
  rw [hentry,he] at hitem'
  cases hitem'
  simp [Stored.token,hentry,hplayer,← hf,hffa]

/-- Each entry is given once, or once to each player if it is free for all, and the counter goes
down with every gift. -/
structure HandedOutOnce (l : Loot) (given : List Stored) : Prop where
  once : ∀ e item, l.entry e = some item → item.freeforall = false → timesGiven given e ≤ 1
  onceEach : ∀ e item player, l.entry e = some item → item.freeforall = true →
    timesGivenTo given e player ≤ 1
  known : ∀ s ∈ given, l.entry s.entry ≠ none

/-- The counter of a call does not wrap. -/
def CountsDown (l : Loot) (call : LootCall) : Prop :=
  (l.run call).1.unlootedCount+(l.run call).2.toList.length = l.unlootedCount

theorem Sound.handedOutOnce (h : Sound l given tokens counted) : HandedOutOnce l given where
  once := fun _ _ he hffa => h.once he hffa
  onceEach := fun _ _ player he hffa => h.once_each he hffa player
  known := by
    intro s hs
    obtain ⟨item,hitem,-⟩ := h.known s hs
    simp [hitem]

theorem Sound.countsDown (h : Sound l given tokens counted) {call : LootCall}
    (hmay : MayRun l call) : CountsDown l call := by
  have hsum := h.sum
  have hnext := (h.run hmay).sum
  rw [List.length_append] at hnext
  unfold CountsDown
  omega

theorem handed_out_once (w : FillWorld) (rolled : List Rolled) (lootOwner : Nat)
    (ownerGroup : Option LootGroup) (personal : Bool)
    (hroom : RoomToFill w rolled ownerGroup personal) (calls : List (LootCall × Option Stored))
    (h : Trace.Runs (Trace.Guarded MayRun Loot.Step)
      (Loot.empty.fillLoot w rolled lootOwner ownerGroup personal).1 calls l') :
    HandedOutOnce l'
        ((Loot.empty.fillLoot w rolled lootOwner ownerGroup personal).2 ++ storedBy calls) ∧
      ∀ call, MayRun l' call → CountsDown l' call := by
  obtain ⟨tokens,counted,hfilled⟩ := sound_fillLoot w rolled lootOwner ownerGroup personal hroom
  have hsound := hfilled.runs h
  exact ⟨hsound.handedOutOnce,fun _ hmay => hsound.countsDown hmay⟩

section Example

def oneItemWorld : FillWorld where
  getItemTemplate := fun itemid => if itemid = 17 then some ⟨1,false,false,false,2⟩ else none
  allowedForPlayer := fun _ _ _ _ => true
  canStoreNewItem := fun _ _ _ _ => true

def twoMembers : LootGroup where
  lootMethod := .masterLoot
  masterLooterGuid := 1
  lootThreshold := 2
  members := [⟨1,true,true⟩,⟨2,true,true⟩]
  nodup := by decide

def oneItemRolled : List Rolled := [⟨⟨17,false,[]⟩,1,0,0⟩]

def anyLooter : Looter := ⟨fun _ _ _ => true,fun _ _ => true⟩

theorem not_handed_out_once : ¬∀ (w : FillWorld) (rolled : List Rolled) (lootOwner : Nat)
    (ownerGroup : Option LootGroup) (personal : Bool) (calls : List (LootCall × Option Stored))
    (l' : Loot), Trace.Runs Loot.Step
      (Loot.empty.fillLoot w rolled lootOwner ownerGroup personal).1 calls l' →
    HandedOutOnce l'
        ((Loot.empty.fillLoot w rolled lootOwner ownerGroup personal).2 ++ storedBy calls) ∧
      ∀ call, CountsDown l' call := by
  intro h
  have hrun := h oneItemWorld oneItemRolled 1 (some twoMembers) false
    [(.storeLootItem anyLooter 2 0,some ⟨.item 0,2,17,1,false⟩),
      (.lootMasterGive anyLooter 1 0,some ⟨.item 0,1,17,1,false⟩)] _ ⟨_,rfl,_,rfl,rfl⟩
  have honce := hrun.1.once (.item 0) _ rfl rfl
  revert honce
  decide

theorem handed_out_once_two_members : HandedOutOnce
    ((Loot.empty.fillLoot oneItemWorld oneItemRolled 1 (some twoMembers) false).1.run
      (.storeLootItem anyLooter 2 0)).1 [⟨.item 0,2,17,1,false⟩] := by
  refine (handed_out_once oneItemWorld oneItemRolled 1 (some twoMembers) false ?_
    [(.storeLootItem anyLooter 2 0,some ⟨.item 0,2,17,1,false⟩)] ⟨_,⟨?_,rfl⟩,rfl⟩).1
  · intro group hgroup _
    cases hgroup
    exact ⟨by decide,by decide,trivial⟩
  · intro slot hslot _
    cases hslot
    exact ⟨rfl,by decide,fun _ _ => .inl rfl⟩

end Example

end TrinityCore.Looting
