import TrinityCore.Mails.MailRuns

set_option autoImplicit false

namespace TrinityCore.Mails

open Players

variable {w : World} {r r' : Realm} {player mailId itemId n : Nat} {moment : MailMoment} {m x : Mail}
  {c c' : Character} {action : Action} {actions : List Action}

section Remains

def Mail.Remains (x : Mail) (mail : List Mail) : Prop :=
  ∃ x' ∈ mail, x'.state ≠ .deleted ∧ x'.messageID = x.messageID ∧ x'.sender = x.sender ∧
    x'.items = x.items ∧ x'.COD = x.COD

theorem remains_of_mem {mail : List Mail} (hx : x ∈ mail) (hlive : x.state ≠ .deleted) :
    x.Remains mail := ⟨x,hx,hlive,rfl,rfl,rfl,rfl⟩

theorem Mail.Remains.saveMail (h : x.Remains c.mail) : x.Remains c.saveMail.mail := by
  obtain ⟨x',hx',hlive,hsame⟩ := h
  refine ⟨{ x' with state := .unchanged },?_,by simp,hsame⟩
  exact List.mem_map_of_mem (List.mem_filter.mpr ⟨hx',by simpa using hlive⟩)

theorem remains_updateMail (hget : c.getMail mailId = some m) (hx : x ∈ c.mail)
    (hlive : x.state ≠ .deleted) {f : Mail → Mail} (hf : x = m → x.Remains [f m]) :
    x.Remains (c.updateMail mailId f).mail := by
  obtain ⟨pre,post,hmail,-,-,hupdate,-⟩ := getMail_split hget
  rw [hupdate]
  rw [hmail,List.mem_append,List.mem_cons] at hx
  rcases hx with hx | hx | hx
  · exact remains_of_mem (List.mem_append_left _ hx) hlive
  · obtain ⟨x',hx',hsame⟩ := hf hx
    rw [List.mem_singleton] at hx'
    exact ⟨x',by simp [hx'],hsame⟩
  · exact remains_of_mem (List.mem_append_right _ (List.mem_cons_of_mem _ hx)) hlive

theorem remains_removeMail (hget : c.getMail mailId = some m) (hx : x ∈ c.mail)
    (hlive : x.state ≠ .deleted) (hne : x ≠ m) : x.Remains (c.removeMail mailId).mail := by
  obtain ⟨pre,post,hmail,-,-,-,hremove⟩ := getMail_split hget
  rw [hremove]
  rw [hmail,List.mem_append,List.mem_cons] at hx
  rcases hx with hx | hx | hx
  · exact remains_of_mem (List.mem_append_left _ hx) hlive
  · exact absurd hx hne
  · exact remains_of_mem (List.mem_append_right _ hx) hlive

theorem mem_set {p : Nat} (hthis : p = player → x ∈ c.mail) (hother : x ∈ (r.characters p).mail) :
    x ∈ ((r.set player c).characters p).mail := by
  by_cases hsame : p = player
  · rw [hsame,characters_set]
    exact hthis hsame
  · rw [characters_set_of_ne hsame]
    exact hother

theorem remains_set {p : Nat} (hx : x ∈ (r.characters p).mail) (hlive : x.state ≠ .deleted)
    (hthis : p = player → x.Remains c.mail) : x.Remains ((r.set player c).characters p).mail := by
  by_cases hsame : p = player
  · rw [hsame,characters_set]
    exact hthis hsame
  · rw [characters_set_of_ne hsame]
    exact remains_of_mem hx hlive

theorem mem_sendMailTo (w : World) (receiver sender : Nat) (messageType : MailMessageType)
    (draft : MailDraft) (deliverTime : Nat) {p : Nat} (hx : x ∈ (r.characters p).mail) :
    x ∈ ((sendMailTo w receiver messageType sender draft deliverTime r).characters p).mail := by
  unfold sendMailTo
  dsimp only
  split_ifs with hbot
  · exact hx
  · refine mem_set ?_ hx
    rintro rfl
    rw [receive_eq]
    exact List.mem_cons_of_mem _ hx

theorem mem_sendReturnToSender {isConnected : Nat → Bool} (senderAcc senderGuid receiverGuid : Nat)
    (draft : MailDraft) (now : Nat) {p : Nat} (hx : x ∈ (r.characters p).mail) :
    x ∈ ((sendReturnToSender w isConnected senderAcc senderGuid receiverGuid draft now
      r).characters p).mail := by
  unfold sendReturnToSender
  dsimp only
  by_cases hnobody : (!isConnected receiverGuid) = true ∧ (if isConnected receiverGuid = true then 0
      else w.getPlayerAccountIdByGUID receiverGuid) = 0
  · rw [if_pos hnobody]
    exact hx
  · rw [if_neg hnobody]
    exact mem_sendMailTo _ _ _ _ _ _ hx

theorem returnItems_mail (items : List Nat) (s : Character × MailDraft) :
    (items.foldl returnItem s).1.mail = s.1.mail := by
  induction items generalizing s with
  | nil => rfl
  | cons guid items ih => exact ih (returnItem s guid)

theorem modifyMoney_mail (c : Character) (amount : Int) :
    (c.modifyMoney amount).1.mail = c.mail := by
  unfold Character.modifyMoney
  split_ifs <;> rfl

theorem mail_withInventory (c : Character) (inventory : Inventory) :
    ({ c with inventory := inventory } : Character).mail = c.mail := rfl

end Remains

section Requests

theorem handleSendMail_cases (w : World) (player : Nat) (moment : MailMoment) (req : SendRequest)
    (r : Realm) : handleSendMail w player moment req r = r ∨
      sendMailResult w player moment req r = .ok ∧ ∃ draft deliverTime, ∃ c : Character, ∃ postage,
        c.mail = (r.characters player).mail ∧
        c.inventory = (req.itemGUIDs.foldl (attach w (w.getPlayerGUIDByName req.receiverName))
          ((r.characters player).inventory,MailDraft.empty)).1 ∧
        handleSendMail w player moment req r = sendMailTo w
          (w.getPlayerGUIDByName req.receiverName) .normal player draft deliverTime
            ({ r with postage := postage }.set player c) := by
  by_cases hok : sendMailResult w player moment req r = .ok
  · have hmail := modifyMoney_mail (r.characters player) (-int32 req.reqmoney)
    have hinventory := modifyMoney_inventory (r.characters player) (-int32 req.reqmoney)
    unfold handleSendMail
    rw [if_pos hok]
    dsimp only
    generalize ((r.characters player).modifyMoney (-int32 req.reqmoney)).1 = c at hmail hinventory ⊢
    rw [hinventory]
    generalize req.itemGUIDs.foldl (attach w (w.getPlayerGUIDByName req.receiverName))
      ((r.characters player).inventory,MailDraft.empty) = attached
    exact .inr ⟨hok,_,_,{ c with inventory := attached.1 },r.postage+req.cost,
      (mail_withInventory c _).trans hmail,rfl,rfl⟩
  · exact .inl (if_neg hok)

theorem remains_send (req : SendRequest) {p : Nat} (hx : x ∈ (r.characters p).mail) :
    x ∈ ((handleSendMail w player moment req r).characters p).mail := by
  rcases handleSendMail_cases w player moment req r with hsame | ⟨-,_,_,c,postage,hmail,-,hsent⟩
  · rw [hsame]
    exact hx
  · rw [hsent]
    refine mem_sendMailTo _ _ _ _ _ _ (mem_set ?_ hx)
    rintro rfl
    rw [hmail]
    exact hx

theorem remains_return {p : Nat} (hx : x ∈ (r.characters p).mail) (hlive : x.state ≠ .deleted)
    (hother : ¬(p = player ∧ mailId = x.messageID)) :
    x.Remains ((handleMailReturnToSender w player moment mailId r).characters p).mail := by
  unfold handleMailReturnToSender
  split
  · exact remains_of_mem hx hlive
  · rename_i m hopen
    have hget := (openMail_some hopen).1
    have hid : m.messageID = mailId := by simpa using List.find?_some hget
    have hremoved : ∀ c : Character, c.mail = ((r.characters player).removeMail mailId).mail →
        x.Remains ((r.set player c).characters p).mail := by
      intro c hc
      refine remains_set hx hlive ?_
      rintro rfl
      rw [hc]
      refine remains_removeMail hget hx hlive ?_
      rintro rfl
      exact hother ⟨rfl,hid.symm⟩
    dsimp only
    split_ifs
    · obtain ⟨x',hx',hsame⟩ := hremoved _ (returnItems_mail m.items
        ((r.characters player).removeMail mailId,MailDraft.empty))
      exact ⟨x',mem_sendReturnToSender _ _ _ _ _ hx',hsame⟩
    · exact hremoved _ rfl

theorem remains_delete {p : Nat} (hx : x ∈ (r.characters p).mail) (hlive : x.state ≠ .deleted)
    (hCOD : x.COD ≠ 0) :
    x.Remains ((handleMailDelete player moment mailId r).characters p).mail := by
  unfold handleMailDelete
  split_ifs
  · split
    · exact remains_of_mem hx hlive
    · rename_i m hget
      have hdeleted : m.COD = 0 → x.Remains ((r.set player ((r.characters player).updateMail
          mailId fun m => { m with state := .deleted })).characters p).mail := by
        intro hfree
        refine remains_set hx hlive ?_
        rintro rfl
        refine remains_updateMail hget hx hlive ?_
        rintro rfl
        exact absurd hfree hCOD
      dsimp only
      split_ifs with hasks
      · exact remains_of_mem hx hlive
      · exact hdeleted (not_not.mp hasks)
      · exact hdeleted (not_not.mp hasks)
  · exact remains_of_mem hx hlive

theorem handleMailTakeMoney_mail (player : Nat) (moment : MailMoment) (mailId : Nat) (r : Realm) :
    handleMailTakeMoney player moment mailId r = r ∨
      ∃ (m : Mail) (c : Character), c.mail = (r.characters player).mail ∧ c.getMail mailId = some m ∧
        c.inventory = (r.characters player).inventory ∧
        handleMailTakeMoney player moment mailId r = r.set player
          (c.updateMail mailId fun m => { m with money := 0, state := .changed }).saveMail := by
  cases hopen : openMail moment mailId (r.characters player) with
  | none => exact .inl (by simp [handleMailTakeMoney,hopen])
  | some m =>
    have hmail := modifyMoney_mail (r.characters player) (int32 m.money)
    cases hmodified : ((r.characters player).modifyMoney (int32 m.money)).2 with
    | false => exact .inl (by simp [handleMailTakeMoney,hopen,hmodified])
    | true =>
      refine .inr ⟨m,_,hmail,?_,modifyMoney_inventory _ _,
        by simp [handleMailTakeMoney,hopen,hmodified]⟩
      unfold Character.getMail
      rw [hmail]
      exact (openMail_some hopen).1

theorem remains_takeMoney {p : Nat} (hx : x ∈ (r.characters p).mail) (hlive : x.state ≠ .deleted) :
    x.Remains ((handleMailTakeMoney player moment mailId r).characters p).mail := by
  rcases handleMailTakeMoney_mail player moment mailId r with hsame | ⟨m,c,hmail,hget,-,htaken⟩
  · rw [hsame]
    exact remains_of_mem hx hlive
  · rw [htaken]
    refine remains_set hx hlive ?_
    rintro rfl
    rw [← hmail] at hx
    refine (remains_updateMail hget hx hlive ?_).saveMail
    rintro rfl
    exact ⟨_,List.mem_singleton_self _,by simp,rfl,rfl,rfl,rfl⟩

/-- A mail that asks for money remains when an item is taken, but for the one that is paid. -/
theorem remains_takeItem (h : Sane w r) (hplayer : player ∈ w.players) {p : Nat}
    (hx : x ∈ (r.characters p).mail) (hlive : x.state ≠ .deleted) :
    x.Remains ((handleMailTakeItem w player moment mailId itemId r).characters p).mail ∨
      (p = player ∧ ∃ it, Takes w player moment mailId itemId r x it) := by
  rcases handleMailTakeItem_cases w player moment mailId itemId r with hsame | ⟨m,it,ht⟩
  · rw [hsame]
    exact .inl (remains_of_mem hx hlive)
  · have hpaid : x ∈ ((payCOD w player moment m r).characters p).mail := by
      have hm := List.mem_of_find?_eq_some ht.get
      have hc := h.proper player hplayer
      rw [payCOD_eq (hc.payable m hm) ht.enough hc.money]
      have hsent : x ∈ ((r.paid moment m).characters p).mail := by
        obtain ⟨new,hmail,-⟩ := (samePurse_paid p).mail
        rw [hmail]
        exact List.mem_append_right _ hx
      split_ifs
      · refine mem_set ?_ hsent
        rintro rfl
        exact hsent
      · exact hx
    rw [ht.handled]
    unfold takenOut
    dsimp only
    by_cases hsame : p = player
    · subst hsame
      by_cases hxm : x = m
      · subst hxm
        exact .inr ⟨rfl,it,ht⟩
      · rw [characters_set]
        exact .inl (remains_updateMail (getMail_payCOD h hplayer ht) hpaid hlive
          fun heq => absurd heq hxm).saveMail
    · rw [characters_set_of_ne hsame]
      exact .inl (remains_of_mem hpaid hlive)

section Inventories

theorem inventory_return (p : Nat) :
    ((handle w r ⟨player,moment,.returnToSender mailId⟩).characters p).inventory =
      (r.characters p).inventory := by
  change ((handleMailReturnToSender w player moment mailId r).characters p).inventory = _
  unfold handleMailReturnToSender
  split
  · rfl
  · rename_i m hopen
    dsimp only
    split_ifs
    · refine ((sendReturnToSender_others _ _ _ _ _).1 p).trans (inventory_set r ?_ p)
      exact returnItems_inventory m.items _
    · refine inventory_set r ?_ p
      rfl

theorem inventory_takeMoney (p : Nat) :
    ((handle w r ⟨player,moment,.takeMoney mailId⟩).characters p).inventory =
      (r.characters p).inventory := by
  change ((handleMailTakeMoney player moment mailId r).characters p).inventory = _
  rcases handleMailTakeMoney_mail player moment mailId r with hsame | ⟨m,c,-,-,hinventory,htaken⟩
  · rw [hsame]
  · rw [htaken]
    refine inventory_set r ?_ p
    exact hinventory

theorem inventory_delete (p : Nat) :
    ((handle w r ⟨player,moment,.delete mailId⟩).characters p).inventory =
      (r.characters p).inventory := by
  change ((handleMailDelete player moment mailId r).characters p).inventory = _
  unfold handleMailDelete
  split
  · split
    · rfl
    · dsimp only
      split_ifs
      · rfl
      · refine inventory_set r ?_ p
        rfl
      · refine inventory_set r ?_ p
        rfl
  · rfl

end Inventories

end Requests

section Runs

/-- A request that a player who exists can make. Those who are connected exist, or are the bot. -/
def Action.Possible (w : World) (action : Action) : Prop :=
  action.player ∈ w.players ∧
    ∀ p, action.moment.isConnected p = true → p ∈ w.players ∨ p = w.ahbPlayerGUID

def Action.TakesItem (action : Action) : Prop :=
  ∃ mailId itemId, action.request = .takeItem mailId itemId

theorem passed_handle (h : Sane w r) (hpossible : action.Possible w) (hno : ¬action.TakesItem) :
    Passed w r (handle w r action) := by
  obtain ⟨player,moment,request⟩ := action
  obtain ⟨hplayer,hconnected⟩ := hpossible
  cases request with
  | sendMail req => exact passed_sendMail h hplayer moment req
  | returnToSender mailId => exact passed_returnToSender h hplayer moment hconnected mailId
  | takeItem mailId itemId => exact absurd ⟨mailId,itemId,rfl⟩ hno
  | takeMoney mailId => exact passed_takeMoney h hplayer moment mailId
  | delete mailId => exact passed_delete h hplayer moment mailId

theorem kept_handle (h : Sane w r) (hpossible : action.Possible w) :
    Kept w r (handle w r action) := by
  by_cases htakes : action.TakesItem
  · obtain ⟨player,moment,request⟩ := action
    obtain ⟨mailId,itemId,hrequest⟩ := htakes
    dsimp only at hrequest
    subst hrequest
    exact kept_takeItem h hpossible.1 moment mailId itemId
  · exact (passed_handle h hpossible htakes).kept h

theorem kept_run (h : Sane w r) (hpossible : ∀ action ∈ actions, action.Possible w) :
    Kept w r (actions.foldl (handle w) r) := by
  induction actions generalizing r with
  | nil => exact .refl h
  | cons action actions ih =>
    rw [List.forall_mem_cons] at hpossible
    have hstep := kept_handle h hpossible.1
    exact hstep.trans (ih hstep.sane hpossible.2)

theorem losses_handle (h : Sane w r) (hpossible : action.Possible w) (hno : ¬action.Loses w r) :
    r.SameLosses (handle w r action) := by
  obtain ⟨player,moment,request⟩ := action
  obtain ⟨hplayer,-⟩ := hpossible
  cases request with
  | sendMail req => exact losses_send req hno
  | returnToSender mailId =>
    refine losses_return fun m hget => ?_
    by_contra hkeep
    exact hno ⟨m,hget,hkeep⟩
  | takeItem mailId itemId => exact losses_takeItem h hplayer moment mailId itemId
  | takeMoney mailId => exact losses_takeMoney
  | delete mailId =>
    have hsame : handle w r ⟨player,moment,.delete mailId⟩ = r :=
      losses_delete fun m hget hCOD => hno ⟨m,hget,hCOD⟩
    rw [hsame]
    exact ⟨rfl,rfl⟩

theorem inventory_handle (h : Sane w r) (hpossible : action.Possible w) (hno : ¬action.TakesItem)
    (p : Nat) (pos : Pos) :
    ((handle w r action).characters p).inventory.itemAt w.store pos = none ∨
      ((handle w r action).characters p).inventory.itemAt w.store pos =
        (r.characters p).inventory.itemAt w.store pos := by
  obtain ⟨player,moment,request⟩ := action
  obtain ⟨hplayer,-⟩ := hpossible
  cases request with
  | sendMail req =>
    change ((handleSendMail w player moment req r).characters p).inventory.itemAt w.store pos = none ∨
      ((handleSendMail w player moment req r).characters p).inventory.itemAt w.store pos = _
    rcases handleSendMail_cases w player moment req r with
      hsame | ⟨hok,draft,deliverTime,c,postage,-,hinventory,hsent⟩
    · rw [hsame]
      exact .inr rfl
    · have hothers := sendMailTo_others w (w.getPlayerGUIDByName req.receiverName) player .normal
        draft deliverTime ({ r with postage := postage }.set player c)
      rw [hsent,hothers.1 p]
      by_cases hsame : p = player
      · subst hsame
        rw [characters_set,hinventory]
        exact (attached_of_sendable h hplayer (sendable_of_ok hplayer hok)).stays pos
      · rw [characters_set_of_ne hsame]
        exact .inr rfl
  | returnToSender mailId => exact .inr (by rw [inventory_return])
  | takeItem mailId itemId => exact absurd ⟨mailId,itemId,rfl⟩ hno
  | takeMoney mailId => exact .inr (by rw [inventory_takeMoney])
  | delete mailId => exact .inr (by rw [inventory_delete])

/-- What a request does not change, and what comes with what it takes. -/
structure Handled (w : World) (action : Action) (r r' : Realm) : Prop where
  kept : Kept w r r'
  passed : ¬action.TakesItem → Passed w r r'
  losses : ¬action.Loses w r → r.SameLosses r'
  inventories : ¬action.TakesItem → ∀ p pos,
    (r'.characters p).inventory.itemAt w.store pos = none ∨
      (r'.characters p).inventory.itemAt w.store pos = (r.characters p).inventory.itemAt w.store pos
  /-- A mail that asks for money is returned, or paid when an item is taken out of it. -/
  paid : ∀ p ∈ w.players, ∀ x ∈ (r.characters p).mail, x.state ≠ .deleted → x.COD ≠ 0 →
    x.Remains (r'.characters p).mail ∨ (p = action.player ∧
      (action.request = .returnToSender x.messageID ∨
        (∃ itemId, action.request = .takeItem x.messageID itemId) ∧
          x.COD ≤ (r.characters p).money ∧
          (r'.characters p).money = (r.characters p).money-x.COD ∧
          payment action.moment x r ∈ (r'.characters x.sender).mail))
  money : ∀ mailId, action.request = .takeMoney mailId → r' = r ∨
    ∃ m m', (r.characters action.player).getMail mailId = some m ∧
      (r'.characters action.player).money = (r.characters action.player).money+m.money ∧
      (r'.characters action.player).getMail mailId = some m' ∧ m'.money = 0

theorem paid_handle (h : Sane w r) (hpossible : action.Possible w) {p : Nat}
    (hx : x ∈ (r.characters p).mail) (hlive : x.state ≠ .deleted) (hCOD : x.COD ≠ 0) :
    x.Remains ((handle w r action).characters p).mail ∨ (p = action.player ∧
      (action.request = .returnToSender x.messageID ∨
        (∃ itemId, action.request = .takeItem x.messageID itemId) ∧
          x.COD ≤ (r.characters p).money ∧
          ((handle w r action).characters p).money = (r.characters p).money-x.COD ∧
          payment action.moment x r ∈ ((handle w r action).characters x.sender).mail)) := by
  obtain ⟨player,moment,request⟩ := action
  obtain ⟨hplayer,-⟩ := hpossible
  cases request with
  | sendMail req => exact .inl (remains_of_mem (remains_send req hx) hlive)
  | returnToSender mailId =>
    by_cases hown : p = player ∧ mailId = x.messageID
    · obtain ⟨hp,rfl⟩ := hown
      exact .inr ⟨hp,.inl rfl⟩
    · exact .inl (remains_return hx hlive hown)
  | takeItem mailId itemId =>
    rcases remains_takeItem h hplayer hx hlive with hremains | ⟨hp,it,ht⟩
    · exact .inl hremains
    · subst hp
      have hid : x.messageID = mailId := by simpa using List.find?_some ht.get
      subst hid
      obtain ⟨hmoney,hpaid⟩ := takeItem_paid h hplayer ht
      exact .inr ⟨rfl,.inr ⟨⟨itemId,rfl⟩,ht.enough,hmoney,hpaid (by omega)⟩⟩
  | takeMoney mailId => exact .inl (remains_takeMoney hx hlive)
  | delete mailId => exact .inl (remains_delete hx hlive hCOD)

theorem handled_handle (h : Sane w r) (hpossible : action.Possible w) :
    Handled w action r (handle w r action) where
  kept := kept_handle h hpossible
  passed := passed_handle h hpossible
  losses := losses_handle h hpossible
  inventories := inventory_handle h hpossible
  paid := fun _ _ _ hx hlive hCOD => paid_handle h hpossible hx hlive hCOD
  money := by
    obtain ⟨player,moment,request⟩ := action
    rintro mailId rfl
    exact handleMailTakeMoney_cases h hpossible.1 moment mailId

/-- Over all requests money and items stay with the players, but for what is lost. -/
theorem handle_conserves (w : World) (r : Realm) (actions : List Action) (h : Sane w r)
    (hpossible : ∀ action ∈ actions, action.Possible w) :
    Kept w r (actions.foldl (handle w) r) ∧
      ∀ action : Action, action.Possible w → Handled w action (actions.foldl (handle w) r)
        (handle w (actions.foldl (handle w) r) action) := by
  have hkept := kept_run h hpossible
  exact ⟨hkept,fun action hnext => handled_handle hkept.sane hnext⟩

end Runs

section Letter

def quietWorld : World where
  store := ⟨fun _ => none,fun _ => none,fun _ _ h => nomatch h⟩
  bonding _ := .noBind
  isConjured _ := false
  players := {1,2}
  ahbPlayerGUID := 3
  getPlayerGUIDByName _ := 0
  getPlayerAccountIdByGUID player := if player = 1 ∨ player = 2 then 1 else 0
  getPlayerTeamByGUID _ := 0
  isGameMaster _ := false
  twoSideInteractionMail _ := false
  mailLevelReq := 1
  mailDeliveryDelay := 3600
  stackable_lt _ _ h := nomatch h
  zero_not_mem := by simp
  ahb_not_mem := by simp
  name_cases _ := .inl rfl
  account_ne player h := by
    rw [if_pos (by simpa using h)]
    exact one_ne_zero
  mem_of_account player h := by
    by_contra hno
    refine h (if_neg fun heq => hno (.inl ?_))
    simpa using heq
  not_gameMaster _ _ := rfl

def letter : Mail := ⟨7,.normal,2,1,[],5,0,0,.unchanged⟩

def oneLetter : Realm where
  characters player := ⟨⟨player,fun _ => none,fun _ _ => none⟩,0,if player = 1 then [letter] else [],
    fun _ => none⟩
  nextMailId := 8
  nextItemGuid := 0
  postage := 0
  lostMoney := 0
  lostItems := []

def atMailbox : MailMoment where
  now := 10
  levelOf _ := 80
  canUnequipItem _ _ := true
  lootGUID _ := 0
  isBoundByEnchant _ := false
  isWrapped _ := false
  hasDuration _ := false
  canOpenMailBox := true
  isConnected _ := false

theorem sane_oneLetter : Sane quietWorld oneLetter := by
  have hmail : ∀ p, ∀ m ∈ (oneLetter.characters p).mail, m = letter := by
    intro p m hm
    change m ∈ (if p = 1 then [letter] else []) at hm
    split_ifs at hm
    · simpa using hm
    · simp at hm
  refine ⟨fun p _ => ⟨Nat.zero_le _,?_,?_,?_,?_,?_⟩,?_⟩
  · intro m hm
    rw [hmail p m hm]
    decide
  · intro m hm hCOD
    rw [hmail p m hm] at hCOD
    exact absurd rfl hCOD
  · intro m hm _ guid hguid
    rw [hmail p m hm] at hguid
    simp [letter] at hguid
  · change ((if p = 1 then [letter] else []).map Mail.messageID).Nodup
    split_ifs <;> simp
  · intro m hm
    rw [hmail p m hm]
    decide
  · have hnone : ∀ p, (oneLetter.characters p).goods quietWorld.store = 0 := by
      intro p
      refine Multiset.eq_zero_of_forall_notMem fun it hit => ?_
      unfold Character.goods at hit
      rw [Multiset.mem_add,mem_contents,mem_inMails] at hit
      rcases hit with ⟨pos,hpos⟩ | ⟨m,hm,-,hit⟩
      · simp [oneLetter,Inventory.itemAt,Inventory.getItemByPos,Inventory.getBagByPos] at hpos
      · rw [hmail p m hm] at hit
        simp [letter,Mail.goods] at hit
    have hgoods : oneLetter.goods quietWorld+(oneLetter.lostItems : Multiset Item) = 0 := by
      unfold Realm.goods
      rw [Finset.sum_eq_zero fun p _ => hnone p]
      rfl
    rw [hgoods]
    exact ⟨Multiset.nodup_zero,by simp,by simp⟩

/-- Three pieces of food, which the second player has sent to the first for a price. -/
def parcelItem : Item := ⟨5,2,3,2,false,none,false,[]⟩

def foodWorld : World where
  __ := quietWorld
  store := packStore
  stackable_lt entry t h := by
    change (if entry = 2 then _ else if entry = 3 then _ else _) = some t at h
    split_ifs at h <;> cases h <;> decide

def parcel : Realm where
  characters player := if player = 1 then
      ⟨⟨1,fun _ => none,fun _ _ => none⟩,150,[letter,⟨8,.normal,2,1,[5],0,100,0,.unchanged⟩],
        fun guid => if guid = 5 then some parcelItem else none⟩
    else ⟨⟨player,fun _ => none,fun _ _ => none⟩,40,[],fun _ => none⟩
  nextMailId := 9
  nextItemGuid := 6
  postage := 0
  lostMoney := 0
  lostItems := []

theorem sane_parcel : Sane foodWorld parcel := by
  have hempty : ∀ guid, (⟨guid,fun _ => none,fun _ _ => none⟩ : Inventory).contents packStore = 0 := by
    intro guid
    refine Multiset.eq_zero_of_forall_notMem fun it hit => ?_
    obtain ⟨pos,hpos⟩ := mem_contents.mp hit
    simp [Inventory.itemAt,Inventory.getItemByPos,Inventory.getBagByPos] at hpos
  have hgoods : parcel.goods foodWorld+(parcel.lostItems : Multiset Item) = {parcelItem} := by
    have hsum : parcel.goods foodWorld =
        (parcel.characters 1).goods packStore+(parcel.characters 2).goods packStore :=
      Finset.sum_pair (by decide)
    have hfirst : (parcel.characters 1).goods packStore = {parcelItem} := by
      rw [Character.goods,show (parcel.characters 1).inventory.contents packStore = 0 from hempty 1]
      rfl
    have hsecond : (parcel.characters 2).goods packStore = 0 := by
      rw [Character.goods,show (parcel.characters 2).inventory.contents packStore = 0 from hempty 2]
      rfl
    rw [hsum,hfirst,hsecond]
    rfl
  refine ⟨fun p hp => ?_,hgoods ▸ ⟨Multiset.nodup_singleton _,?_,?_⟩⟩
  · have hplayer : p = 1 ∨ p = 2 := by simpa [foodWorld,quietWorld] using hp
    rcases hplayer with rfl | rfl
    · refine ⟨by decide,by decide,by decide,?_,by decide,by decide⟩
      intro m hm _ guid hguid
      obtain rfl | rfl : m = letter ∨ m = ⟨8,.normal,2,1,[5],0,100,0,.unchanged⟩ := by
        simpa [parcel] using hm
      · cases hguid
      · obtain rfl := List.mem_singleton.mp hguid
        exact ⟨parcelItem,rfl,rfl⟩
    · exact ⟨by decide,by decide,by decide,(fun _ hm => absurd hm List.not_mem_nil),by decide,by decide⟩
  · intro it hit
    rw [Multiset.mem_singleton.mp hit]
    decide
  · intro it hit
    rw [Multiset.mem_singleton.mp hit]
    exact ⟨by decide,by decide⟩

/-- The first player pays for the parcel and takes the money of the letter, and the second takes the
price. -/
theorem handle_conserves_parcel : Kept foodWorld parcel
    ([⟨1,atMailbox,.takeItem 8 5⟩,⟨1,atMailbox,.takeMoney 7⟩,
      ⟨2,atMailbox,.takeMoney 9⟩].foldl (handle foodWorld) parcel) := by
  refine (handle_conserves foodWorld parcel _ sane_parcel fun action haction => ?_).1
  have hplayer : (action.player = 1 ∨ action.player = 2) ∧ action.moment = atMailbox := by
    simp only [List.mem_cons,List.not_mem_nil,or_false] at haction
    rcases haction with rfl | rfl | rfl <;> exact ⟨by decide,rfl⟩
  refine ⟨?_,fun p hp => ?_⟩
  · simpa [foodWorld,quietWorld] using hplayer.1
  · rw [hplayer.2] at hp
    cases hp

/-- What is in a mail that a player deletes is nobody's any more. -/
theorem delete_loses_money : Sane quietWorld oneLetter ∧
    Action.Possible quietWorld ⟨1,atMailbox,.delete 7⟩ ∧
    oneLetter.worth quietWorld+oneLetter.postage = 5 ∧
    (handle quietWorld oneLetter ⟨1,atMailbox,.delete 7⟩).worth quietWorld+
      (handle quietWorld oneLetter ⟨1,atMailbox,.delete 7⟩).postage = 0 := by
  refine ⟨sane_oneLetter,⟨by simp [quietWorld],fun p hp => by simp [atMailbox] at hp⟩,?_,?_⟩
  · decide
  · decide

end Letter

end TrinityCore.Mails
