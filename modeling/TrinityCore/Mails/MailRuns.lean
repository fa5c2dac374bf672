import TrinityCore.Mails.Taking

set_option autoImplicit false

namespace TrinityCore.Mails

open Players

variable {w : World} {r r' : Realm} {player mailId itemId : Nat} {moment : MailMoment} {m : Mail}
  {it : Item} {action : Action} {actions : List Action}

section TakeItem

/-- What the realm is when an item has come out of a mail of which the price is paid. -/
def takenOut (w : World) (player mailId itemId : Nat) (it : Item) (dest : List (Pos × Nat))
    (r : Realm) : Realm :=
  let c := ((r.characters player).updateMail mailId fun m => m.without itemId).removeMItem it.guid
  let stored := c.inventory.storeItem w.store w.bonding it dest r.nextItemGuid
  { r.set player { c with inventory := stored.1 }.saveMail with nextItemGuid := stored.2 }

structure Takes (w : World) (player : Nat) (moment : MailMoment) (mailId itemId : Nat) (r : Realm)
    (m : Mail) (it : Item) : Prop where
  get : (r.characters player).getMail mailId = some m
  live : m.state ≠ .deleted
  mem : itemId ∈ m.items
  enough : m.COD ≤ (r.characters player).money
  item : (r.characters player).mitems itemId = some it
  ok : ((r.characters player).inventory.canStore w.store nullBag nullSlot (some it) false).result = .ok
  handled : handleMailTakeItem w player moment mailId itemId r = takenOut w player mailId itemId it
    ((r.characters player).inventory.canStore w.store nullBag nullSlot (some it) false).dest
      (payCOD w player moment m r)

theorem handleMailTakeItem_cases (w : World) (player : Nat) (moment : MailMoment)
    (mailId itemId : Nat) (r : Realm) : handleMailTakeItem w player moment mailId itemId r = r ∨
      ∃ m it, Takes w player moment mailId itemId r m it := by
  cases hopen : openMail moment mailId (r.characters player) with
  | none => exact .inl (by simp [handleMailTakeItem,hopen])
  | some m =>
    obtain ⟨hget,hlive⟩ := openMail_some hopen
    by_cases hmem : itemId ∈ m.items
    · cases henough : (r.characters player).hasEnoughMoney m.COD with
      | false => exact .inl (by simp [handleMailTakeItem,hopen,henough])
      | true =>
        cases hit : (r.characters player).mitems itemId with
        | none => exact .inl (by simp [handleMailTakeItem,hopen,hit])
        | some it =>
          by_cases hok : ((r.characters player).inventory.canStore w.store nullBag nullSlot
              (some it) false).result = .ok
          · refine .inr ⟨m,it,hget,hlive,hmem,of_decide_eq_true henough,hit,hok,?_⟩
            unfold handleMailTakeItem
            dsimp only
            rw [hopen]
            dsimp only
            rw [if_neg (not_not.mpr hmem),if_neg (by simp [henough]),hit]
            dsimp only
            rw [if_pos hok]
            rfl
          · exact .inl (by simp [handleMailTakeItem,hopen,hit,hok])
    · exact .inl (by simp [handleMailTakeItem,hopen,hmem])

theorem samePurse_payCOD (h : Sane w r) (hplayer : player ∈ w.players)
    (ht : Takes w player moment mailId itemId r m it) :
    SamePurse r.nextMailId (r.characters player)
      ((payCOD w player moment m r).characters player) := by
  have hc := h.proper player hplayer
  have hm := List.mem_of_find?_eq_some ht.get
  rw [payCOD_eq (hc.payable m hm) ht.enough hc.money]
  split
  · rw [characters_set]
    exact (samePurse_paid player).withMoney _
  · exact .refl _ _

theorem getMail_payCOD (h : Sane w r) (hplayer : player ∈ w.players)
    (ht : Takes w player moment mailId itemId r m it) :
    ((payCOD w player moment m r).characters player).getMail mailId = some m := by
  have hm := List.mem_of_find?_eq_some ht.get
  have hid : m.messageID = mailId := by simpa using List.find?_some ht.get
  have hfresh := (h.proper player hplayer).fresh m hm
  rw [(samePurse_payCOD h hplayer ht).getMail (by omega)]
  exact ht.get

theorem kept_takeItem (h : Sane w r) (hplayer : player ∈ w.players) (moment : MailMoment)
    (mailId itemId : Nat) : Kept w r (handleMailTakeItem w player moment mailId itemId r) := by
  rcases handleMailTakeItem_cases w player moment mailId itemId r with hsame | ⟨m,it,ht⟩
  · rw [hsame]
    exact .refl h
  · have hc := h.proper player hplayer
    have hm := List.mem_of_find?_eq_some ht.get
    have hpurse := samePurse_payCOD h hplayer ht
    have hpaid := (passed_payCOD h hplayer (hc.payable m hm) ht.enough moment).kept h
    rw [ht.handled]
    refine hpaid.trans ?_
    have hok := ht.ok
    have hit := ht.item
    rw [← hpurse.inventory] at hok ⊢
    rw [← hpurse.mitems] at hit
    exact kept_takeOut hpaid.sane hplayer (getMail_payCOD h hplayer ht) ht.live ht.mem hit hok rfl rfl

theorem money_takenOut (dest : List (Pos × Nat)) :
    ((takenOut w player mailId itemId it dest r).characters player).money =
      (r.characters player).money := by
  unfold takenOut
  dsimp only
  rw [characters_set]
  rfl

theorem mem_mail_takenOut (dest : List (Pos × Nat)) {receiver : Nat} {x : Mail}
    (hget : (r.characters player).getMail mailId = some m) (hx : x ∈ (r.characters receiver).mail)
    (hne : x.messageID ≠ mailId) (hstate : x.state = .unchanged) :
    x ∈ ((takenOut w player mailId itemId it dest r).characters receiver).mail := by
  unfold takenOut
  dsimp only
  by_cases hsame : receiver = player
  · subst hsame
    rw [characters_set]
    obtain ⟨pre,post,hmail,hid,-,hupdate,-⟩ := getMail_split hget
    rw [hupdate]
    unfold Character.removeMItem Character.saveMail
    dsimp only
    rw [hmail] at hx
    refine List.mem_map.mpr ⟨x,List.mem_filter.mpr ⟨?_,by simp [hstate]⟩,?_⟩
    · simp only [List.mem_append,List.mem_cons] at hx ⊢
      rcases hx with hx | rfl | hx
      · exact .inl hx
      · exact absurd hid hne
      · exact .inr (.inr hx)
    · rw [← hstate]
  · rw [characters_set_of_ne hsame]
    exact hx

theorem takeItem_paid (h : Sane w r) (hplayer : player ∈ w.players)
    (ht : Takes w player moment mailId itemId r m it) :
    ((handleMailTakeItem w player moment mailId itemId r).characters player).money =
        (r.characters player).money-m.COD ∧
      (0 < m.COD → payment moment m r ∈
        ((handleMailTakeItem w player moment mailId itemId r).characters m.sender).mail) := by
  have hc := h.proper player hplayer
  have hm := List.mem_of_find?_eq_some ht.get
  have hid : m.messageID = mailId := by simpa using List.find?_some ht.get
  have hfresh := hc.fresh m hm
  have hget := getMail_payCOD h hplayer ht
  have hpaid : payCOD w player moment m r = if m.COD > 0 then _ else r :=
    payCOD_eq (hc.payable m hm) ht.enough hc.money
  rw [ht.handled]
  refine ⟨?_,fun hpos => mem_mail_takenOut _ hget ?_ ?_ rfl⟩
  · rw [money_takenOut,hpaid]
    split
    · rw [characters_set]
    · omega
  · have hsent : payment moment m r ∈ ((r.paid moment m).characters m.sender).mail := by
      unfold Realm.paid
      rw [characters_set]
      exact List.mem_cons_self
    rw [hpaid,if_pos hpos]
    by_cases hsame : m.sender = player
    · rw [hsame] at hsent ⊢
      rw [characters_set]
      exact hsent
    · rw [characters_set_of_ne hsame]
      exact hsent
  · change r.nextMailId ≠ mailId
    omega

end TakeItem

section TakeMoney

theorem getMail_saveMail {c : Character} (hget : c.getMail mailId = some m)
    (hlive : m.state ≠ .deleted) :
    c.saveMail.getMail mailId = some { m with state := .unchanged } := by
  obtain ⟨pre,post,hmail,hid,hpre,-,-⟩ := getMail_split hget
  have hsaved : c.saveMail = { c with
      mail := ((pre.filter fun m => m.state ≠ .deleted).map fun m => { m with state := .unchanged }) ++
        { m with state := .unchanged } ::
          ((post.filter fun m => m.state ≠ .deleted).map fun m => { m with state := .unchanged }) } := by
    unfold Character.saveMail
    rw [hmail,List.filter_append,List.filter_cons_of_pos (by simpa using hlive),List.map_append,
      List.map_cons]
  rw [hsaved]
  refine getMail_of_split hid ?_
  intro x hx
  obtain ⟨y,hy,rfl⟩ := List.mem_map.mp hx
  exact hpre y (List.mem_filter.mp hy).1

theorem handleMailTakeMoney_cases (h : Sane w r) (hplayer : player ∈ w.players)
    (moment : MailMoment) (mailId : Nat) : handleMailTakeMoney player moment mailId r = r ∨
      ∃ m m', (r.characters player).getMail mailId = some m ∧
        ((handleMailTakeMoney player moment mailId r).characters player).money =
          (r.characters player).money+m.money ∧
        ((handleMailTakeMoney player moment mailId r).characters player).getMail mailId = some m' ∧
        m'.money = 0 := by
  unfold handleMailTakeMoney
  split
  · exact .inl rfl
  · rename_i m hopen
    dsimp only
    split_ifs with hmodified
    · obtain ⟨hget,hlive⟩ := openMail_some hopen
      have hc := h.proper player hplayer
      have hm := List.mem_of_find?_eq_some hget
      obtain ⟨hadd,-⟩ := modifyMoney_add (hc.mailMoney m hm) hmodified
      obtain ⟨pre,post,-,hid,hpre,hupdate,-⟩ := getMail_split hget
      have hupdated : ({ r.characters player with
          money := (r.characters player).money+m.money } : Character).updateMail mailId (fun m =>
            { m with money := 0, state := .changed }) = { r.characters player with
              money := (r.characters player).money+m.money
              mail := pre ++ { m with money := 0, state := .changed } :: post } :=
        congrArg (fun c : Character => { c with money := (r.characters player).money+m.money })
          (hupdate fun m => { m with money := 0, state := .changed })
      rw [hadd,hupdated,characters_set]
      have hfound : ({ r.characters player with
          money := (r.characters player).money+m.money
          mail := pre ++ { m with money := 0, state := .changed } :: post } : Character).getMail
            mailId = some { m with money := 0, state := .changed } :=
        getMail_of_split (c := { r.characters player with
          money := (r.characters player).money+m.money }) hid hpre
      exact .inr ⟨m,_,hget,rfl,getMail_saveMail hfound (by simp),rfl⟩
    · exact .inl rfl

end TakeMoney

section Others

theorem sendMailTo_others (w : World) (receiver sender : Nat) (messageType : MailMessageType)
    (draft : MailDraft) (deliverTime : Nat) (r : Realm) :
    (∀ p, ((sendMailTo w receiver messageType sender draft deliverTime r).characters p).inventory =
        (r.characters p).inventory) ∧
      (receiver ≠ w.ahbPlayerGUID →
        (sendMailTo w receiver messageType sender draft deliverTime r).lostMoney = r.lostMoney ∧
        (sendMailTo w receiver messageType sender draft deliverTime r).lostItems = r.lostItems) := by
  unfold sendMailTo
  dsimp only
  split_ifs with hbot
  · exact ⟨fun _ => rfl,fun hne => absurd hbot hne⟩
  · refine ⟨fun p => ?_,fun _ => ⟨rfl,rfl⟩⟩
    by_cases hsame : p = receiver
    · subst hsame
      rw [characters_set,receive_eq]
    · exact congrArg Character.inventory (characters_set_of_ne hsame)

theorem sendReturnToSender_others {isConnected : Nat → Bool} (senderAcc senderGuid : Nat)
    {receiverGuid : Nat} (draft : MailDraft) (now : Nat) (r : Realm) :
    (∀ p, ((sendReturnToSender w isConnected senderAcc senderGuid receiverGuid draft now r).characters
        p).inventory = (r.characters p).inventory) ∧
      (receiverGuid ∈ w.players →
        (sendReturnToSender w isConnected senderAcc senderGuid receiverGuid draft now r).lostMoney =
          r.lostMoney ∧
        (sendReturnToSender w isConnected senderAcc senderGuid receiverGuid draft now r).lostItems =
          r.lostItems) := by
  unfold sendReturnToSender
  dsimp only
  by_cases hnobody : (!isConnected receiverGuid) = true ∧ (if isConnected receiverGuid = true then 0
      else w.getPlayerAccountIdByGUID receiverGuid) = 0
  · rw [if_pos hnobody]
    refine ⟨fun _ => rfl,fun hreceiver => ?_⟩
    obtain ⟨hnot,hzero⟩ := hnobody
    rw [if_neg (by simpa using hnot)] at hzero
    exact absurd hzero (w.account_ne receiverGuid hreceiver)
  · rw [if_neg hnobody]
    obtain ⟨hinventory,hlost⟩ := sendMailTo_others w receiverGuid senderGuid .normal draft
      (now+if draft.items ≠ [] ∧ senderAcc ≠
        (if isConnected receiverGuid = true then 0 else w.getPlayerAccountIdByGUID receiverGuid) then
          w.mailDeliveryDelay else 0) r
    exact ⟨hinventory,fun hreceiver => hlost fun hbot => w.ahb_not_mem (hbot ▸ hreceiver)⟩

theorem returnItems_inventory (items : List Nat) (s : Character × MailDraft) :
    (items.foldl returnItem s).1.inventory = s.1.inventory := by
  induction items generalizing s with
  | nil => rfl
  | cons guid items ih => exact ih (returnItem s guid)

theorem modifyMoney_inventory (c : Character) (amount : Int) :
    (c.modifyMoney amount).1.inventory = c.inventory := by
  unfold Character.modifyMoney
  split_ifs <;> rfl

theorem inventory_set (r : Realm) {c : Character} (hc : c.inventory = (r.characters player).inventory)
    (p : Nat) : ((r.set player c).characters p).inventory = (r.characters p).inventory := by
  by_cases hsame : p = player
  · subst hsame
    rw [characters_set,hc]
  · rw [characters_set_of_ne hsame]

def Action.Loses (w : World) (r : Realm) (action : Action) : Prop :=
  match action.request with
  | .sendMail req => w.getPlayerGUIDByName req.receiverName = w.ahbPlayerGUID
  | .returnToSender mailId => ∃ m, (r.characters action.player).getMail mailId = some m ∧
      ¬(m.messageType = .normal ∧ m.sender ∈ w.players)
  | .delete mailId => ∃ m, (r.characters action.player).getMail mailId = some m ∧ m.COD = 0
  | .takeItem _ _ => False
  | .takeMoney _ => False

def Realm.SameLosses (r r' : Realm) : Prop :=
  r'.lostMoney = r.lostMoney ∧ r'.lostItems = r.lostItems

theorem losses_send (req : SendRequest)
    (hkeep : w.getPlayerGUIDByName req.receiverName ≠ w.ahbPlayerGUID) :
    r.SameLosses (handleSendMail w player moment req r) := by
  unfold handleSendMail
  split
  · exact (sendMailTo_others w _ player .normal _ _ _).2 hkeep
  · exact ⟨rfl,rfl⟩

theorem losses_return (hkeep : ∀ m, (r.characters player).getMail mailId = some m →
    m.messageType = .normal ∧ m.sender ∈ w.players) :
    r.SameLosses (handleMailReturnToSender w player moment mailId r) := by
  unfold handleMailReturnToSender
  split
  · exact ⟨rfl,rfl⟩
  · rename_i m hopen
    obtain ⟨hnormal,hsender⟩ := hkeep m (openMail_some hopen).1
    have hzero : m.sender ≠ 0 := by
      intro hzero
      exact w.zero_not_mem (hzero ▸ hsender)
    dsimp only
    rw [if_pos ⟨hnormal,hzero⟩]
    exact (sendReturnToSender_others _ m.receiver _ moment.now _).2 hsender

theorem losses_delete (hkeep : ∀ m, (r.characters player).getMail mailId = some m → m.COD ≠ 0) :
    handleMailDelete player moment mailId r = r := by
  unfold handleMailDelete
  split
  · split
    · rfl
    · rename_i m hget
      rw [if_pos (hkeep m hget)]
  · rfl

theorem losses_takeItem (h : Sane w r) (hplayer : player ∈ w.players) (moment : MailMoment)
    (mailId itemId : Nat) :
    r.SameLosses (handleMailTakeItem w player moment mailId itemId r) := by
  rcases handleMailTakeItem_cases w player moment mailId itemId r with hsame | ⟨m,it,ht⟩
  · rw [hsame]
    exact ⟨rfl,rfl⟩
  · have hc := h.proper player hplayer
    have hm := List.mem_of_find?_eq_some ht.get
    rw [ht.handled,payCOD_eq (hc.payable m hm) ht.enough hc.money]
    unfold takenOut
    dsimp only
    split <;> exact ⟨rfl,rfl⟩

theorem losses_takeMoney : r.SameLosses (handleMailTakeMoney player moment mailId r) := by
  unfold handleMailTakeMoney
  split
  · exact ⟨rfl,rfl⟩
  · dsimp only
    split <;> exact ⟨rfl,rfl⟩

end Others

end TrinityCore.Mails
