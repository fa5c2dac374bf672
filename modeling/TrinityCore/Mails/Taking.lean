import TrinityCore.Mails.Attachments

set_option autoImplicit false

namespace TrinityCore.Mails

open Players

variable {w : World} {r r' : Realm} {player mailId itemId n : Nat} {moment : MailMoment} {m : Mail}
  {c : Character} {S : ItemStore} {it : Item}

section Payment

def payment (moment : MailMoment) (m : Mail) (r : Realm) : Mail :=
  ⟨r.nextMailId,.normal,m.receiver,m.sender,[],m.COD,0,moment.now,.unchanged⟩

def Character.addMail (c : Character) (m : Mail) : Character := { c with mail := m :: c.mail }

def Realm.paid (r : Realm) (moment : MailMoment) (m : Mail) : Realm :=
  { r with nextMailId := r.nextMailId+1 }.set m.sender
    ((r.characters m.sender).addMail (payment moment m r))

theorem paid_eq (hsender : m.sender ∈ w.players) :
    sendMailTo w m.sender .normal m.receiver { MailDraft.empty with money := m.COD } moment.now r =
      r.paid moment m := by
  have hnot : m.sender ≠ w.ahbPlayerGUID := by
    intro hbot
    exact w.ahb_not_mem (hbot ▸ hsender)
  unfold sendMailTo
  dsimp only
  rw [if_neg hnot]
  rfl

theorem money_paid : ((r.paid moment m).characters player).money = (r.characters player).money := by
  by_cases hsame : player = m.sender
  · subst hsame
    unfold Realm.paid
    rw [characters_set]
    rfl
  · exact congrArg Character.money (characters_set_of_ne hsame)

theorem payCOD_eq (hsender : m.COD ≠ 0 → m.sender ∈ w.players)
    (henough : m.COD ≤ (r.characters player).money)
    (hmoney : (r.characters player).money ≤ maxMoneyAmount) :
    payCOD w player moment m r = if m.COD > 0 then
      (r.paid moment m).set player { (r.paid moment m).characters player with
        money := (r.characters player).money-m.COD } else r := by
  unfold payCOD
  split
  · rename_i hpos
    have hplayer := hsender (by omega)
    rw [if_pos (.inr (w.account_ne m.sender hplayer))]
    dsimp only
    rw [paid_eq hplayer,modifyMoney_sub (by rw [money_paid]; exact henough)
      (by rw [money_paid]; exact hmoney),money_paid]
  · rfl

structure SamePurse (n : Nat) (c c' : Character) : Prop where
  inventory : c'.inventory = c.inventory
  mitems : c'.mitems = c.mitems
  mail : ∃ new, c'.mail = new ++ c.mail ∧ ∀ m ∈ new, m.messageID = n

theorem samePurse_paid (player : Nat) :
    SamePurse r.nextMailId (r.characters player) ((r.paid moment m).characters player) := by
  by_cases hsame : player = m.sender
  · subst hsame
    unfold Realm.paid
    rw [characters_set]
    exact ⟨rfl,rfl,[payment moment m r],rfl,by simp [payment]⟩
  · have heq : (r.paid moment m).characters player = r.characters player :=
      characters_set_of_ne hsame
    rw [heq]
    exact ⟨rfl,rfl,[],rfl,by simp⟩

theorem SamePurse.withMoney {c' : Character} (h : SamePurse n c c') (money : Nat) :
    SamePurse n c { c' with money := money } := ⟨h.inventory,h.mitems,h.mail⟩

theorem SamePurse.refl (n : Nat) (c : Character) : SamePurse n c c := ⟨rfl,rfl,[],rfl,by simp⟩

theorem SamePurse.getMail {c' : Character} (h : SamePurse n c c') (hne : mailId ≠ n) :
    c'.getMail mailId = c.getMail mailId := by
  obtain ⟨new,hmail,hids⟩ := h.mail
  unfold Character.getMail
  rw [hmail,List.find?_append]
  have hnone : new.find? (fun m => m.messageID == mailId) = none := by
    rw [List.find?_eq_none]
    intro m hm
    simpa [hids m hm] using hne.symm
  rw [hnone,Option.none_or]

theorem passed_payCOD (h : Sane w r) (hplayer : player ∈ w.players)
    (hsender : m.COD ≠ 0 → m.sender ∈ w.players) (henough : m.COD ≤ (r.characters player).money)
    (moment : MailMoment) : Passed w r (payCOD w player moment m r) := by
  have hmoney := (h.proper player hplayer).money
  rw [payCOD_eq hsender henough hmoney]
  split
  · rename_i hpos
    have hsent : Delivered w m.COD [] r (r.paid moment m) := by
      rw [← paid_eq (hsender (by omega))]
      have hnodup : ((r.goods w+(r.lostItems : Multiset Item)+
          (MailDraft.empty.items : Multiset Item)).map Item.guid).Nodup := by
        rw [MailDraft.empty,Multiset.coe_nil,add_zero]
        exact h.registered.nodup
      exact delivered_sendMailTo { MailDraft.empty with money := m.COD } h.proper hnodup
        (.inl (hsender (by omega))) (henough.trans hmoney) (fun hCOD => absurd rfl hCOD) _ _
    have hsane : Sane w (r.paid moment m) := by
      refine ⟨hsent.proper,?_⟩
      rw [hsent.nextItemGuid,hsent.goods,Multiset.coe_nil,add_zero]
      exact h.registered
    have hc := hsane.proper player hplayer
    have hpaid : ((r.paid moment m).characters player).money = (r.characters player).money :=
      money_paid
    have haside : SetAside w m.COD [] (r.paid moment m) ((r.paid moment m).set player
        { (r.paid moment m).characters player with money := (r.characters player).money-m.COD }) := by
      refine setAside_of_set hsane 0 hplayer (hc.withMoney ((Nat.sub_le _ _).trans hmoney)) ?_ ?_
      · unfold Character.worth
        dsimp only
        omega
      · rw [Multiset.coe_nil,add_zero]
        rfl
    refine ⟨haside.proper,?_,?_,hsent.nextItemGuid⟩
    · have hworth := haside.worth
      have hsum := hsent.worth
      have hpostage := hsent.postage
      omega
    · have hpieces := haside.pieces
      rw [Multiset.coe_nil,add_zero] at hpieces
      rw [hpieces,hsent.goods,Multiset.coe_nil,add_zero]
  · exact .refl h

end Payment

section Out

/-- A mail without one of its items, which asks for no money any more. -/
def Mail.without (m : Mail) (itemId : Nat) : Mail :=
  { m with items := m.items.erase itemId, COD := 0, state := .changed }

theorem goods_without {mitems : Nat → Option Item} (hmem : itemId ∈ m.items)
    (hit : mitems itemId = some it) :
    m.goods mitems = {it}+(m.without itemId).goods mitems := by
  have hperm : (m.items.filterMap mitems).Perm
      (it :: (m.items.erase itemId).filterMap mitems) := by
    have hcons := (List.perm_cons_erase hmem).filterMap mitems
    rwa [List.filterMap_cons_some hit] at hcons
  unfold Mail.goods
  rw [Multiset.coe_eq_coe.mpr hperm,← Multiset.cons_coe,← Multiset.singleton_add]
  rfl

theorem takeOut_character (hc : Proper w n c) (hnodup : c.listed.Nodup)
    (hget : c.getMail mailId = some m) (hlive : m.state ≠ .deleted) (hmem : itemId ∈ m.items)
    (hit : c.mitems itemId = some it) {c' : Character}
    (hc' : c' = (c.updateMail mailId fun m => m.without itemId).removeMItem it.guid) :
    Proper w n c' ∧ c'.worth = c.worth ∧ c'.inventory = c.inventory ∧
      inMails (Mail.goods c.mitems) c.mail = {it}+inMails (Mail.goods c'.mitems) c'.mail := by
  have hm := List.mem_of_find?_eq_some hget
  have hguid : it.guid = itemId := by
    obtain ⟨x,hx,hguid⟩ := hc.linked m hm hlive itemId hmem
    cases hit.symm.trans hx
    exact hguid
  obtain ⟨pre,post,hmail,-,-,hupdate,-⟩ := getMail_split hget
  rw [hupdate] at hc'
  have hlisted := listed_split hmail hlive
  rw [hlisted,Multiset.nodup_add,Multiset.coe_nodup] at hnodup
  obtain ⟨hitems,-,hapart⟩ := hnodup
  have hreplaced : Proper w n { c with mail := pre ++ m.without itemId :: post } :=
    hc.replace (m.without itemId) hmail rfl (hc.mailMoney m hm) (fun hCOD => absurd rfl hCOD)
      fun _ => ⟨hlive,List.erase_subset⟩
  have hchanged : (m.without itemId).state ≠ .deleted := by simp [Mail.without]
  have hrest : ({ c with mail := pre ++ m.without itemId :: post } : Character).listed =
      (m.items.erase itemId : Multiset Nat)+
        inMails (fun m => (m.items : Multiset Nat)) (pre ++ post) :=
    listed_split rfl hchanged
  have hsame : ∀ guid ∈ ({ c with mail := pre ++ m.without itemId :: post } : Character).listed,
      Function.update c.mitems it.guid none guid = c.mitems guid := by
    intro guid hmem'
    apply Function.update_of_ne
    rintro rfl
    rw [hrest,Multiset.mem_add,hguid] at hmem'
    rcases hmem' with hmem' | hmem'
    · exact hitems.not_mem_erase (Multiset.mem_coe.mp hmem')
    · exact Multiset.disjoint_left.mp hapart (Multiset.mem_coe.mpr hmem) hmem'
  subst hc'
  refine ⟨hreplaced.withMItems hsame,?_,rfl,?_⟩
  · have hworth := worth_replace (m.without itemId) hmail
    rw [if_neg hlive,if_neg hchanged] at hworth
    have hmoney : (m.without itemId).money = m.money := rfl
    unfold Character.worth at hworth ⊢
    unfold Character.removeMItem
    dsimp only at hworth ⊢
    omega
  · unfold Character.removeMItem
    dsimp only
    have hothers : inMails (Mail.goods (Function.update c.mitems it.guid none))
        (pre ++ m.without itemId :: post) =
          inMails (Mail.goods c.mitems) (pre ++ m.without itemId :: post) := by
      refine inMails_congr fun x hx hstate => goods_congr fun guid hguid' => hsame guid ?_
      exact mem_inMails.mpr ⟨x,hx,hstate,by simpa using hguid'⟩
    rw [hothers,hmail,inMails_split,inMails_split,if_neg hlive,if_neg hchanged,
      goods_without hmem hit,add_assoc]

theorem kept_takeOut (h : Sane w r) (hplayer : player ∈ w.players)
    (hget : (r.characters player).getMail mailId = some m) (hlive : m.state ≠ .deleted)
    (hmem : itemId ∈ m.items) (hit : (r.characters player).mitems itemId = some it)
    (hok : ((r.characters player).inventory.canStore w.store nullBag nullSlot (some it) false).result =
      .ok) {c : Character}
    (hc : c = ((r.characters player).updateMail mailId fun m => m.without itemId).removeMItem it.guid)
    {stored : Inventory × Nat}
    (hstored : stored = c.inventory.storeItem w.store w.bonding it
      ((r.characters player).inventory.canStore w.store nullBag nullSlot (some it) false).dest
        r.nextItemGuid) :
    Kept w r { r.set player { c with inventory := stored.1 }.saveMail with
      nextItemGuid := stored.2 } := by
  obtain ⟨hproper,hworth,hinventory,hmails⟩ := takeOut_character (h.proper player hplayer)
    (h.nodup_listed hplayer) hget hlive hmem hit hc
  obtain ⟨others,hothers⟩ := Multiset.le_iff_exists_add.mp (goods_le (r := r) hplayer)
  have hgoods : r.goods w+(r.lostItems : Multiset Item) = {it}+c.inventory.contents w.store+
      (inMails (Mail.goods c.mitems) c.mail+others+(r.lostItems : Multiset Item)) := by
    rw [hothers,hinventory]
    unfold Character.goods
    rw [hmails]
    abel
  have hset := goods_set (r := r) (c := { c with inventory := stored.1 }.saveMail) hplayer
  rw [goods_saveMail] at hset
  have hgoods' : (r.set player { c with inventory := stored.1 }.saveMail).goods w+
      (r.lostItems : Multiset Item) = stored.1.contents w.store+
        (inMails (Mail.goods c.mitems) c.mail+others+(r.lostItems : Multiset Item)) := by
    have hnew : (r.set player { c with inventory := stored.1 }.saveMail).goods w =
        others+({ c with inventory := stored.1 } : Character).goods w.store := by
      rw [hothers,add_comm ((r.characters player).goods w.store) others,add_assoc,
        add_comm ((r.characters player).goods w.store),← add_assoc] at hset
      exact add_right_cancel hset
    rw [hnew]
    unfold Character.goods
    dsimp only
    abel
  have hreg := h.registered
  rw [hgoods] at hreg
  have hregItem := hreg.of_le (Multiset.le_add_right _ _)
  have hnew : it.guid ∉ (c.inventory.contents w.store).map Item.guid := by
    have hnodup := hregItem.nodup
    rw [Multiset.map_add,Multiset.map_singleton,Multiset.nodup_add] at hnodup
    exact Multiset.disjoint_left.mp hnodup.2.2 (Multiset.mem_singleton_self _)
  have hwithin : it.Within countBound := hregItem.good it (by simp)
  rw [hinventory] at hnew
  have hplaced := canStore_placed (bounded_store w) hwithin hnew hok
  rw [← hinventory] at hplaced hstored
  generalize (c.inventory.canStore w.store nullBag nullSlot (some it) false).dest =
    dest at hplaced hstored
  have hleft : it.left (dest.map Prod.snd).sum = it := by
    rw [hplaced.sum]
    rfl
  have hreshaped : Reshaped countBound r.nextItemGuid stored.2 ({it}+c.inventory.contents w.store)
      (stored.1.contents w.store) := by
    rw [hstored]
    rw [← hleft] at hregItem
    have hstore : Reshaped countBound r.nextItemGuid
        (c.inventory.storeItem w.store w.bonding it dest r.nextItemGuid).2 _ _ :=
      reshaped_storeItem (bounded_store w) hregItem hplaced.nonempty hplaced.distinct
        hplaced.placeable
    rwa [hleft] at hstore
  have hall := hreshaped.add_right
    (inMails (Mail.goods c.mitems) c.mail+others+(r.lostItems : Multiset Item))
  rw [← hgoods,← hgoods'] at hall
  refine ⟨⟨?_,hall.registered h.registered⟩,?_,hall⟩
  · intro p hp
    change Proper w r.nextMailId ((r.set player { c with inventory := stored.1 }.saveMail).characters p)
    by_cases hsame : p = player
    · subst hsame
      rw [characters_set]
      exact (hproper.withInventory stored.1).saveMail
    · rw [characters_set_of_ne hsame]
      exact h.proper p hp
  · have hsum := worth_set (r := r) (c := { c with inventory := stored.1 }.saveMail) hplayer
    rw [worth_saveMail] at hsum
    rw [worth_nextItemGuid]
    dsimp only
    have hpostage : (r.set player { c with inventory := stored.1 }.saveMail).postage = r.postage := rfl
    have hlost : (r.set player { c with inventory := stored.1 }.saveMail).lostMoney = r.lostMoney := rfl
    have hkeep : ({ c with inventory := stored.1 } : Character).worth = c.worth := rfl
    omega

end Out

end TrinityCore.Mails
