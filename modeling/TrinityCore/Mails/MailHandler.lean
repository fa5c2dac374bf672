import TrinityCore.Mails.Mail

set_option autoImplicit false

namespace TrinityCore.Mails

open Players

def maxMailItems : Nat := 12

def unsendableEntry : Nat := 19860

inductive MailResult where
  | ok
  /-- Nothing is answered. -/
  | ignored
  | tooManyAttachments
  | recipientNotFound
  | cannotSendToSelf
  | notEnoughMoney
  | recipientCapReached
  | notYourTeam
  | attachmentInvalid
  | boundItem
  | ownCharactersOnly
  | cantSendWrappedCOD
  | onlyEmptyBags
  deriving DecidableEq

structure MailMoment extends Moment where
  canOpenMailBox : Bool
  isConnected : Nat → Bool

structure SendRequest where
  receiverName : String
  itemGUIDs : List Nat
  money : Nat
  COD : Nat
  money_lt : money < 2^32

namespace SendRequest

variable (req : SendRequest)

def cost : Nat := if req.itemGUIDs = [] then 30 else 30*req.itemGUIDs.length

def reqmoney : Nat := (req.cost+req.money)%2^32

end SendRequest

section Send

variable (w : World) (player : Nat) (moment : MailMoment) (req : SendRequest)

/-- All the items that are there are bound to an account. -/
def accountBound (inventory : Inventory) (itemGUIDs : List Nat) : Bool :=
  !itemGUIDs.isEmpty && itemGUIDs.all fun guid =>
    (inventory.getItemByGuid w.store guid).all fun found => found.2.isBoundAccountWide w.store

def checkAttachment (receiver COD : Nat) (inventory : Inventory) (guid : Nat) : MailResult :=
  if guid = 0 then .attachmentInvalid
  else
    match inventory.getItemByGuid w.store guid with
    | none => .attachmentInvalid
    | some (pos,it) =>
      if it.entry = unsendableEntry then .attachmentInvalid
      else if !it.canBeTraded w.store moment.toMoment inventory pos true false then .boundItem
      else if it.isBoundAccountWide w.store && it.soulBound &&
          w.getPlayerAccountIdByGUID player != w.getPlayerAccountIdByGUID receiver then
        .ownCharactersOnly
      else if w.isConjured it.entry || moment.hasDuration it then .boundItem
      else if COD ≠ 0 ∧ moment.isWrapped it then .cantSendWrappedCOD
      else if inventory.isNotEmptyBag w.store it then .onlyEmptyBags
      else .ok

/-- The first attachment that fails decides. -/
def checkAttachments (receiver COD : Nat) (inventory : Inventory) (itemGUIDs : List Nat) :
    MailResult :=
  (itemGUIDs.map (checkAttachment w player moment receiver COD inventory)).find? (· ≠ .ok) |>.getD
    .ok

def sendMailResult (r : Realm) : MailResult :=
  let c := r.characters player
  let receiver := w.getPlayerGUIDByName req.receiverName
  if req.itemGUIDs.length > maxMailItems then .tooManyAttachments
  else if !moment.canOpenMailBox then .ignored
  else if req.receiverName = "" then .ignored
  else if moment.levelOf player < w.mailLevelReq then .ignored
  else if receiver = 0 then .recipientNotFound
  else if player = receiver then .cannotSendToSelf
  else if req.reqmoney < req.money then .notEnoughMoney
  else if !c.hasEnoughMoney req.reqmoney && !w.isGameMaster player then .notEnoughMoney
  else if (r.characters receiver).mail.length%256 > 100 then .recipientCapReached
  else if !accountBound w c.inventory req.itemGUIDs &&
      w.getPlayerTeamByGUID player != w.getPlayerTeamByGUID receiver &&
      !w.twoSideInteractionMail player then .notYourTeam
  else if moment.levelOf receiver < w.mailLevelReq then .ignored
  else checkAttachments w player moment receiver req.COD c.inventory req.itemGUIDs

/-- An item goes from the inventory into the mail. One that is named twice is in it already. -/
def attach (receiver : Nat) (s : Inventory × MailDraft) (guid : Nat) : Inventory × MailDraft :=
  match s.1.getItemByGuid w.store guid with
  | some (pos,it) => (s.1.removeItem w.store pos,s.2.addItem { it with owner := receiver })
  | none => s

def handleSendMail (r : Realm) : Realm :=
  if sendMailResult w player moment req r = .ok then
    let receiver := w.getPlayerGUIDByName req.receiverName
    let c := ((r.characters player).modifyMoney (-int32 req.reqmoney)).1
    let attached := req.itemGUIDs.foldl (attach w receiver) (c.inventory,MailDraft.empty)
    let needItemDelay := req.itemGUIDs ≠ [] ∧
      w.getPlayerAccountIdByGUID player ≠ w.getPlayerAccountIdByGUID receiver
    let delay := if needItemDelay then w.mailDeliveryDelay else 0
    sendMailTo w receiver .normal player
      { items := attached.2.items
        money := req.money
        COD := if req.itemGUIDs = [] then 0 else req.COD } (moment.now+delay)
      ({ r with postage := r.postage+req.cost }.set player { c with inventory := attached.1 })
  else r

end Send

section Requests

variable (w : World) (player : Nat) (moment : MailMoment) (mailId : Nat)

def openMail (c : Character) : Option Mail :=
  if moment.canOpenMailBox then
    (c.getMail mailId).filter fun m => m.state ≠ .deleted ∧ m.deliverTime ≤ moment.now
  else none

def returnItem (s : Character × MailDraft) (guid : Nat) : Character × MailDraft :=
  (s.1.removeMItem guid,
    match s.1.mitems guid with
    | some it => s.2.addItem it
    | none => s.2)

def handleMailReturnToSender (r : Realm) : Realm :=
  match openMail moment mailId (r.characters player) with
  | none => r
  | some m =>
    let c := (r.characters player).removeMail mailId
    if m.messageType = .normal ∧ m.sender ≠ 0 then
      let returned := m.items.foldl returnItem (c,MailDraft.empty)
      sendReturnToSender w moment.isConnected (w.getPlayerAccountIdByGUID player) m.receiver m.sender
        { returned.2 with money := m.money } moment.now (r.set player returned.1)
    else (r.set player c).lose m.money (m.items.filterMap c.mitems)

/-- The price of a mail goes from the one who takes an item of it to its sender. -/
def payCOD (m : Mail) (r : Realm) : Realm :=
  if m.COD > 0 then
    let r := if moment.isConnected m.sender ∨ w.getPlayerAccountIdByGUID m.sender ≠ 0 then
        sendMailTo w m.sender .normal m.receiver { MailDraft.empty with money := m.COD }
          moment.now r
      else r.lose m.COD []
    r.set player ((r.characters player).modifyMoney (-int32 m.COD)).1
  else r

def handleMailTakeItem (itemId : Nat) (r : Realm) : Realm :=
  let c := r.characters player
  match openMail moment mailId c with
  | none => r
  | some m =>
    if itemId ∉ m.items then r
    else if !c.hasEnoughMoney m.COD then r
    else
      match c.mitems itemId with
      | none => r
      | some it =>
        let can := c.inventory.canStore w.store nullBag nullSlot (some it) false
        if can.result = .ok then
          let r := payCOD w player moment m r
          let c := ((r.characters player).updateMail mailId fun m =>
            { m with items := m.items.erase itemId, COD := 0, state := .changed }).removeMItem it.guid
          let stored := c.inventory.storeItem w.store w.bonding it can.dest r.nextItemGuid
          { r.set player { c with inventory := stored.1 }.saveMail with nextItemGuid := stored.2 }
        else r

def handleMailTakeMoney (r : Realm) : Realm :=
  match openMail moment mailId (r.characters player) with
  | none => r
  | some m =>
    let modified := (r.characters player).modifyMoney (int32 m.money)
    if modified.2 then
      r.set player (modified.1.updateMail mailId fun m =>
        { m with money := 0, state := .changed }).saveMail
    else r

/-- A mail that asks for money is not deleted. -/
def handleMailDelete (r : Realm) : Realm :=
  if moment.canOpenMailBox then
    match (r.characters player).getMail mailId with
    | none => r
    | some m =>
      if m.COD ≠ 0 then r
      else
        let r' := r.set player ((r.characters player).updateMail mailId fun m =>
          { m with state := .deleted })
        if m.state = .deleted then r'
        else r'.lose m.money (m.items.filterMap (r.characters player).mitems)
  else r

end Requests

inductive Request where
  | sendMail (req : SendRequest)
  | returnToSender (mailId : Nat)
  | takeItem (mailId itemId : Nat)
  | takeMoney (mailId : Nat)
  | delete (mailId : Nat)

structure Action where
  player : Nat
  moment : MailMoment
  request : Request

def handle (w : World) (r : Realm) (action : Action) : Realm :=
  match action.request with
  | .sendMail req => handleSendMail w action.player action.moment req r
  | .returnToSender mailId => handleMailReturnToSender w action.player action.moment mailId r
  | .takeItem mailId itemId => handleMailTakeItem w action.player action.moment mailId itemId r
  | .takeMoney mailId => handleMailTakeMoney action.player action.moment mailId r
  | .delete mailId => handleMailDelete action.player action.moment mailId r

end TrinityCore.Mails
