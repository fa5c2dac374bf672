import TrinityCore.Players.StoredItems

set_option autoImplicit false

namespace TrinityCore.Mails

open Players

def maxMoneyAmount : Nat := 2^31-1

inductive MailMessageType where
  | normal
  | auction
  | creature
  | gameobject
  | calendar
  deriving DecidableEq

inductive MailState where
  | unchanged
  | changed
  | deleted
  deriving DecidableEq

structure Mail where
  messageID : Nat
  messageType : MailMessageType
  sender : Nat
  receiver : Nat
  /-- The guids of the items. -/
  items : List Nat
  money : Nat
  COD : Nat
  deliverTime : Nat
  state : MailState
  deriving DecidableEq

structure MailDraft where
  items : List Item
  money : Nat
  COD : Nat

def MailDraft.empty : MailDraft := ⟨[],0,0⟩

/-- The items are in the order of their guids, and there is one of each guid. -/
def MailDraft.addItem (draft : MailDraft) (it : Item) : MailDraft :=
  { draft with
    items := (draft.items.filter fun x => x.guid ≠ it.guid).orderedInsert
      (fun x y => x.guid ≤ y.guid) it }

structure Character where
  inventory : Inventory
  money : Nat
  mail : List Mail
  /-- The items in the mails, by their guids. -/
  mitems : Nat → Option Item

def int32 (n : Nat) : Int := Int.bmod n (2^32)

namespace Character

variable (c : Character)

def hasEnoughMoney (amount : Nat) : Bool := decide (c.money ≥ amount)

def modifyMoney (amount : Int) : Character × Bool :=
  if amount = 0 then (c,true)
  else if amount < 0 then
    ({ c with money := if c.money > (-amount).toNat then c.money-(-amount).toNat else 0 },true)
  else if c.money < maxMoneyAmount-amount.toNat then
    ({ c with money := c.money+amount.toNat },true)
  else (c,false)

def getMail (id : Nat) : Option Mail := c.mail.find? fun m => m.messageID == id

def updateMail (id : Nat) (f : Mail → Mail) : Character :=
  { c with mail := c.mail.modify (c.mail.findIdx fun m => m.messageID == id) f }

def removeMail (id : Nat) : Character :=
  { c with mail := c.mail.eraseP fun m => m.messageID == id }

def addMItem (it : Item) : Character :=
  { c with mitems := Function.update c.mitems it.guid (some it) }

def removeMItem (guid : Nat) : Character :=
  { c with mitems := Function.update c.mitems guid none }

def saveMail : Character :=
  { c with
    mail := (c.mail.filter fun m => m.state ≠ .deleted).map fun m => { m with state := .unchanged } }

def receive (m : Mail) (items : List Item) : Character :=
  items.foldl addMItem { c with mail := m :: c.mail }

end Character

structure Realm where
  characters : Nat → Character
  nextMailId : Nat
  nextItemGuid : Nat
  /-- What was paid for the mails that were sent. -/
  postage : Nat
  /-- The money and the items that nobody has any more. -/
  lostMoney : Nat
  lostItems : List Item

namespace Realm

variable (r : Realm)

def set (player : Nat) (c : Character) : Realm :=
  { r with characters := Function.update r.characters player c }

def lose (money : Nat) (items : List Item) : Realm :=
  { r with lostMoney := r.lostMoney+money, lostItems := r.lostItems ++ items }

end Realm

/-- What does not change while players send mails. -/
structure World where
  store : ItemStore
  bonding : Nat → ItemBonding
  isConjured : Nat → Bool
  /-- The players that exist. -/
  players : Finset Nat
  /-- The character of the auction house bot, which is none of them. -/
  ahbPlayerGUID : Nat
  getPlayerGUIDByName : String → Nat
  getPlayerAccountIdByGUID : Nat → Nat
  getPlayerTeamByGUID : Nat → Nat
  isGameMaster : Nat → Bool
  twoSideInteractionMail : Nat → Bool
  mailLevelReq : Nat
  mailDeliveryDelay : Nat
  stackable_lt : ∀ entry t, store.getItemTemplate entry = some t → t.stackable < 2^31
  zero_not_mem : 0 ∉ players
  ahb_not_mem : ahbPlayerGUID ∉ players
  name_cases : ∀ name, getPlayerGUIDByName name = 0 ∨ getPlayerGUIDByName name ∈ players ∨
    getPlayerGUIDByName name = ahbPlayerGUID
  account_ne : ∀ player ∈ players, getPlayerAccountIdByGUID player ≠ 0
  mem_of_account : ∀ player, getPlayerAccountIdByGUID player ≠ 0 →
    player ∈ players ∨ player = ahbPlayerGUID
  not_gameMaster : ∀ player ∈ players, isGameMaster player = false

variable (w : World)

def sendMailTo (receiver : Nat) (messageType : MailMessageType) (sender : Nat) (draft : MailDraft)
    (deliverTime : Nat) (r : Realm) : Realm :=
  let mailId := r.nextMailId
  let r := { r with nextMailId := mailId+1 }
  if receiver = w.ahbPlayerGUID then r.lose draft.money draft.items
  else
    r.set receiver ((r.characters receiver).receive
      { messageID := mailId
        messageType := messageType
        sender := sender
        receiver := receiver
        items := draft.items.map Item.guid
        money := draft.money
        COD := draft.COD
        deliverTime := deliverTime
        state := .unchanged } draft.items)

/-- `SendReturnToSender`. The account of a receiver who is connected is not looked up. -/
def sendReturnToSender (isConnected : Nat → Bool) (senderAcc senderGuid receiverGuid : Nat)
    (draft : MailDraft) (now : Nat) (r : Realm) : Realm :=
  let rcAccount := if isConnected receiverGuid then 0 else w.getPlayerAccountIdByGUID receiverGuid
  if !isConnected receiverGuid ∧ rcAccount = 0 then r.lose draft.money draft.items
  else
    let delay := if draft.items ≠ [] ∧ senderAcc ≠ rcAccount then w.mailDeliveryDelay else 0
    sendMailTo w receiverGuid .normal senderGuid draft (now+delay) r

end TrinityCore.Mails
