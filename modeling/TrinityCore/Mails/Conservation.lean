import TrinityCore.Mails.Holdings

set_option autoImplicit false

namespace TrinityCore.Mails

open Players

def countBound (_ : Nat) : Nat := 2^32-1

theorem bounded_store (w : World) : w.store.Bounded countBound := by
  intro entry proto hproto
  have hlt := w.stackable_lt entry proto hproto
  unfold ItemTemplate.getMaxStackSize countBound
  split_ifs <;> omega

structure Sane (w : World) (r : Realm) : Prop where
  proper : ∀ player ∈ w.players, Proper w r.nextMailId (r.characters player)
  registered : Registered countBound r.nextItemGuid (r.goods w+(r.lostItems : Multiset Item))

structure Delivered (w : World) (money : Nat) (items : List Item) (r r' : Realm) : Prop where
  proper : ∀ player ∈ w.players, Proper w r'.nextMailId (r'.characters player)
  worth : r'.worth w+r'.lostMoney = r.worth w+r.lostMoney+money
  goods : r'.goods w+(r'.lostItems : Multiset Item) =
    r.goods w+(r.lostItems : Multiset Item)+(items : Multiset Item)
  postage : r'.postage = r.postage
  nextItemGuid : r'.nextItemGuid = r.nextItemGuid

section Deliver

variable {w : World} {r : Realm} {receiver sender : Nat} {draft : MailDraft}

theorem delivered_lose (hproper : ∀ player ∈ w.players, Proper w r.nextMailId (r.characters player))
    (money : Nat) (items : List Item) : Delivered w money items r (r.lose money items) where
  proper := hproper
  worth := by
    change r.worth w+(r.lostMoney+money) = _
    omega
  goods := by
    change r.goods w+((r.lostItems ++ items : List Item) : Multiset Item) = _
    rw [← Multiset.coe_add,add_assoc]
  postage := rfl
  nextItemGuid := rfl

theorem not_listed {player : Nat} {items : List Item} {lost : Multiset Item}
    (hproper : Proper w r.nextMailId (r.characters player)) (hplayer : player ∈ w.players)
    (hnodup : ((r.goods w+lost+(items : Multiset Item)).map Item.guid).Nodup) :
    ∀ guid ∈ items.map Item.guid, guid ∉ (r.characters player).listed := by
  intro guid hguid hlisted
  rw [← guids_mailed hproper.linked] at hlisted
  have hmem : guid ∈ (r.goods w+lost).map Item.guid := by
    have hle : inMails (Mail.goods (r.characters player).mitems) (r.characters player).mail ≤
        r.goods w+lost :=
      (Multiset.le_add_left _ _).trans ((goods_le hplayer).trans (Multiset.le_add_right _ _))
    exact Multiset.mem_of_le (Multiset.map_le_map hle) hlisted
  rw [Multiset.map_add,Multiset.nodup_add] at hnodup
  exact Multiset.disjoint_left.mp hnodup.2.2 hmem (by simpa using hguid)

theorem delivered_sendMailTo (draft : MailDraft)
    (hproper : ∀ player ∈ w.players, Proper w r.nextMailId (r.characters player))
    (hnodup : ((r.goods w+(r.lostItems : Multiset Item)+(draft.items : Multiset Item)).map
      Item.guid).Nodup)
    (hreceiver : receiver ∈ w.players ∨ receiver = w.ahbPlayerGUID)
    (hmoney : draft.money ≤ maxMoneyAmount) (hCOD : draft.COD ≠ 0 → sender ∈ w.players)
    (messageType : MailMessageType) (deliverTime : Nat) :
    Delivered w draft.money draft.items r
      (sendMailTo w receiver messageType sender draft deliverTime r) := by
  unfold sendMailTo
  dsimp only
  split_ifs with hbot
  · have hproper' : ∀ player ∈ w.players, Proper w (r.nextMailId+1) (r.characters player) :=
      fun player hplayer => (hproper player hplayer).mono (Nat.le_succ _)
    obtain ⟨hp,hworth,hgoods,hpostage,hguid⟩ := delivered_lose
      (r := { r with nextMailId := r.nextMailId+1 }) hproper' draft.money draft.items
    exact ⟨hp,hworth,hgoods,hpostage,hguid⟩
  · have hplayer : receiver ∈ w.players := hreceiver.resolve_right hbot
    have hc := hproper receiver hplayer
    have hitems : (draft.items.map Item.guid).Nodup := by
      have hle : ((draft.items : Multiset Item).map Item.guid).Nodup :=
        Multiset.nodup_of_le (Multiset.map_le_map (Multiset.le_add_left _ _)) hnodup
      simpa using hle
    have hnew := not_listed hc hplayer hnodup
    set m : Mail := ⟨r.nextMailId,messageType,sender,receiver,draft.items.map Item.guid,draft.money,
      draft.COD,deliverTime,.unchanged⟩ with hm
    refine ⟨fun player hmem => ?_,?_,?_,rfl,rfl⟩
    · by_cases hsame : player = receiver
      · subst hsame
        rw [characters_set]
        exact hc.receive rfl hmoney hCOD rfl hitems hnew
      · rw [characters_set_of_ne hsame]
        exact (hproper player hmem).mono (Nat.le_succ _)
    · have hset := worth_set (r := { r with nextMailId := r.nextMailId+1 })
        (c := (r.characters receiver).receive m draft.items) hplayer
      rw [worth_receive (by simp [hm])] at hset
      change _+r.lostMoney = r.worth w+r.lostMoney+m.money
      change _+(r.characters receiver).worth = r.worth w+_ at hset
      omega
    · have hset := goods_set (r := { r with nextMailId := r.nextMailId+1 })
        (c := (r.characters receiver).receive m draft.items) hplayer
      rw [goods_receive (by simp [hm]) rfl hitems hnew] at hset
      change _+(r.characters receiver).goods w.store = r.goods w+_ at hset
      rw [← add_assoc,add_right_comm] at hset
      have hcancel := add_right_cancel hset
      change _+(r.lostItems : Multiset Item) = _
      rw [hcancel]
      abel

theorem delivered_sendReturnToSender (draft : MailDraft)
    (hproper : ∀ player ∈ w.players, Proper w r.nextMailId (r.characters player))
    (hnodup : ((r.goods w+(r.lostItems : Multiset Item)+(draft.items : Multiset Item)).map
      Item.guid).Nodup)
    (hmoney : draft.money ≤ maxMoneyAmount) (hCOD : draft.COD = 0) {isConnected : Nat → Bool}
    (hconnected : ∀ p, isConnected p = true → p ∈ w.players ∨ p = w.ahbPlayerGUID)
    (senderAcc senderGuid receiverGuid now : Nat) :
    Delivered w draft.money draft.items r
      (sendReturnToSender w isConnected senderAcc senderGuid receiverGuid draft now r) := by
  unfold sendReturnToSender
  dsimp only
  by_cases hthere : isConnected receiverGuid = true
  · rw [if_neg (by simp [hthere])]
    exact delivered_sendMailTo draft hproper hnodup (hconnected _ hthere) hmoney
      (fun hne => absurd hCOD hne) _ _
  · rw [if_neg hthere]
    split_ifs with haccount
    · exact delivered_lose hproper draft.money draft.items
    · exact delivered_sendMailTo draft hproper hnodup
        (w.mem_of_account _ fun hzero => haccount ⟨by simpa using hthere,hzero⟩) hmoney
        (fun hne => absurd hCOD hne) _ _
    · exact delivered_sendMailTo draft hproper hnodup
        (w.mem_of_account _ fun hzero => haccount ⟨by simpa using hthere,hzero⟩) hmoney
        (fun hne => absurd hCOD hne) _ _

end Deliver

structure Kept (w : World) (r r' : Realm) : Prop where
  sane : Sane w r'
  worth : r'.worth w+r'.postage+r'.lostMoney = r.worth w+r.postage+r.lostMoney
  goods : Reshaped countBound r.nextItemGuid r'.nextItemGuid
    (r.goods w+(r.lostItems : Multiset Item)) (r'.goods w+(r'.lostItems : Multiset Item))

/-- What there is only comes to others, with new owners. -/
structure Passed (w : World) (r r' : Realm) : Prop where
  proper : ∀ player ∈ w.players, Proper w r'.nextMailId (r'.characters player)
  worth : r'.worth w+r'.postage+r'.lostMoney = r.worth w+r.postage+r.lostMoney
  pieces : (r'.goods w+(r'.lostItems : Multiset Item)).map Item.stack =
    (r.goods w+(r.lostItems : Multiset Item)).map Item.stack
  nextItemGuid : r'.nextItemGuid = r.nextItemGuid

section Kept

variable {w : World} {r r₁ r₂ r' : Realm} {money : Nat} {items : List Item}

theorem Kept.refl (h : Sane w r) : Kept w r r := ⟨h,rfl,.refl _ _ _ _ _⟩

theorem Kept.trans (h : Kept w r r₁) (h' : Kept w r₁ r') : Kept w r r' :=
  ⟨h'.sane,h'.worth.trans h.worth,h.goods.trans h'.goods⟩

theorem Passed.refl (h : Sane w r) : Passed w r r := ⟨h.proper,rfl,rfl,rfl⟩

theorem Passed.kept (h : Sane w r) (hp : Passed w r r') : Kept w r r' := by
  have hreshaped : Reshaped countBound r.nextItemGuid r'.nextItemGuid
      (r.goods w+(r.lostItems : Multiset Item)) (r'.goods w+(r'.lostItems : Multiset Item)) := by
    rw [hp.nextItemGuid]
    exact reshaped_of_stack hp.pieces _
  exact ⟨⟨hp.proper,hreshaped.registered h.registered⟩,hp.worth,hreshaped⟩

theorem Sane.nodup_goods (h : Sane w r) {player : Nat} (hplayer : player ∈ w.players) :
    (((r.characters player).goods w.store).map Item.guid).Nodup :=
  Multiset.nodup_of_le
    (Multiset.map_le_map ((goods_le hplayer).trans (Multiset.le_add_right _ _))) h.registered.nodup

theorem Sane.nodup_listed (h : Sane w r) {player : Nat} (hplayer : player ∈ w.players) :
    (r.characters player).listed.Nodup := by
  rw [← guids_mailed (h.proper player hplayer).linked]
  exact Multiset.nodup_of_le (Multiset.map_le_map (Multiset.le_add_left _ _))
    (h.nodup_goods hplayer)

theorem map_guid (m : Multiset Item) : m.map Item.guid = (m.map Item.stack).map Prod.fst := by
  rw [Multiset.map_map]
  rfl

structure SetAside (w : World) (money : Nat) (items : List Item) (r r₁ : Realm) : Prop where
  proper : ∀ player ∈ w.players, Proper w r₁.nextMailId (r₁.characters player)
  worth : r₁.worth w+r₁.postage+r₁.lostMoney+money = r.worth w+r.postage+r.lostMoney
  pieces : (r₁.goods w+(r₁.lostItems : Multiset Item)+(items : Multiset Item)).map Item.stack =
    (r.goods w+(r.lostItems : Multiset Item)).map Item.stack
  nextItemGuid : r₁.nextItemGuid = r.nextItemGuid

theorem SetAside.nodup (h : Sane w r) (hs : SetAside w money items r r₁) :
    ((r₁.goods w+(r₁.lostItems : Multiset Item)+(items : Multiset Item)).map Item.guid).Nodup := by
  rw [map_guid,hs.pieces,← map_guid]
  exact h.registered.nodup

theorem setAside_of_set (h : Sane w r) (postage : Nat) {player : Nat} (hplayer : player ∈ w.players)
    {c : Character} (hc : Proper w r.nextMailId c)
    (hworth : c.worth+postage+money = (r.characters player).worth)
    (hpieces : (c.goods w.store+(items : Multiset Item)).map Item.stack =
      ((r.characters player).goods w.store).map Item.stack) :
    SetAside w money items r ({ r with postage := r.postage+postage }.set player c) where
  proper := by
    intro p hp
    by_cases hsame : p = player
    · subst hsame
      rw [characters_set]
      exact hc
    · rw [characters_set_of_ne hsame]
      exact h.proper p hp
  worth := by
    have hset := worth_set (r := { r with postage := r.postage+postage }) (c := c) hplayer
    change _+(r.characters player).worth = r.worth w+c.worth at hset
    change _+(r.postage+postage)+r.lostMoney+money = _
    omega
  pieces := by
    have hset := goods_set (r := { r with postage := r.postage+postage }) (c := c) hplayer
    change _+(r.characters player).goods w.store = r.goods w+c.goods w.store at hset
    have hmap := congrArg (Multiset.map Item.stack) hset
    rw [Multiset.map_add,Multiset.map_add,← hpieces,Multiset.map_add,add_comm (Multiset.map _ _)
      (Multiset.map Item.stack (items : Multiset Item)),← add_assoc] at hmap
    have hcancel := add_right_cancel hmap
    change Multiset.map Item.stack (_+(r.lostItems : Multiset Item)+_) = _
    rw [Multiset.map_add,Multiset.map_add,add_right_comm,hcancel,Multiset.map_add]
  nextItemGuid := rfl

theorem SetAside.passed (hs : SetAside w money items r r₁) (hd : Delivered w money items r₁ r') :
    Passed w r r' := by
  refine ⟨hd.proper,?_,?_,hd.nextItemGuid.trans hs.nextItemGuid⟩
  · have := hd.worth
    have := hd.postage
    have := hs.worth
    omega
  · rw [hd.goods]
    exact hs.pieces

theorem SetAside.passed_nothing (hs : SetAside w 0 [] r r₁) : Passed w r r₁ := by
  refine ⟨hs.proper,hs.worth,?_,hs.nextItemGuid⟩
  have hpieces := hs.pieces
  rwa [Multiset.coe_nil,add_zero] at hpieces

end Kept

section Requests

variable {w : World} {r : Realm} {player mailId : Nat} {moment : MailMoment} {m : Mail}

theorem openMail_some (h : openMail moment mailId (r.characters player) = some m) :
    (r.characters player).getMail mailId = some m ∧ m.state ≠ .deleted := by
  unfold openMail at h
  split_ifs at h
  obtain ⟨hget,hlive⟩ := Option.filter_eq_some_iff.mp h
  simp only [ne_eq,decide_eq_true_eq] at hlive
  exact ⟨hget,hlive.1⟩

end Requests

end TrinityCore.Mails
