import TrinityCore.Mails.Handling

set_option autoImplicit false

namespace TrinityCore.Mails

open Players

variable {w : World} {r : Realm} {player receiver : Nat} {moment : MailMoment} {req : SendRequest}
  {S : ItemStore} {inv₀ inv : Inventory} {draft : MailDraft} {guid : Nat} {itemGUIDs : List Nat}

section Attach

structure Attached (S : ItemStore) (inv₀ inv : Inventory) (draft : MailDraft) : Prop where
  stays : ∀ pos, inv.itemAt S pos = none ∨ inv.itemAt S pos = inv₀.itemAt S pos
  pieces : (inv.contents S+(draft.items : Multiset Item)).map Item.stack =
    (inv₀.contents S).map Item.stack

theorem Attached.nodup (h : Attached S inv₀ inv draft)
    (hnodup : ((inv₀.contents S).map Item.guid).Nodup) :
    ((inv.contents S+(draft.items : Multiset Item)).map Item.guid).Nodup := by
  rw [map_guid,h.pieces,← map_guid]
  exact hnodup

theorem checkAttachment_ok {COD : Nat}
    (h : checkAttachment w player moment receiver COD inv₀ guid = .ok) :
    ∃ pos it, inv₀.getItemByGuid w.store guid = some (pos,it) ∧
      (isBagPos pos = true → it.isBag w.store = false) := by
  unfold checkAttachment at h
  cases hfound : inv₀.getItemByGuid w.store guid with
  | none =>
    rw [hfound] at h
    split_ifs at h
  | some found =>
    rw [hfound] at h
    dsimp only at h
    split_ifs at h with hzero hentry htraded
    exact ⟨found.1,found.2,rfl,canBeTraded_bag (by simpa using htraded)⟩

theorem checkAttachments_ok {COD : Nat}
    (h : checkAttachments w player moment receiver COD inv₀ itemGUIDs = .ok) :
    ∀ guid ∈ itemGUIDs, checkAttachment w player moment receiver COD inv₀ guid = .ok := by
  intro guid hguid
  unfold checkAttachments at h
  by_contra hno
  have hmem : checkAttachment w player moment receiver COD inv₀ guid ∈
      itemGUIDs.map (checkAttachment w player moment receiver COD inv₀) :=
    List.mem_map_of_mem hguid
  cases hfind : (itemGUIDs.map (checkAttachment w player moment receiver COD inv₀)).find?
      (· ≠ .ok) with
  | none =>
    have hok := List.find?_eq_none.mp hfind _ hmem
    simp [hno] at hok
  | some result =>
    rw [hfind,Option.getD_some] at h
    have hne := List.find?_some hfind
    simp [h] at hne

theorem Attached.found (h : Attached S inv₀ inv draft)
    (hnodup : ((inv₀.contents S).map Item.guid).Nodup) {pos : Pos} {it : Item}
    (hfound : inv.getItemByGuid S guid = some (pos,it)) {pos₀ : Pos} {it₀ : Item}
    (hfound₀ : inv₀.getItemByGuid S guid = some (pos₀,it₀)) : pos₀ = pos ∧ it₀ = it := by
  obtain ⟨hat,hguid⟩ := getItemByGuid_some hfound
  obtain ⟨hat₀,hguid₀⟩ := getItemByGuid_some hfound₀
  have hbefore : inv₀.itemAt S pos = some it := by
    rcases h.stays pos with hnone | hsame
    · cases hnone.symm.trans hat
    · exact hsame.symm.trans hat
  have hpos := Stock.held_inj hnodup (mem_places (valid_of_itemAt hat₀))
    (mem_places (valid_of_itemAt hbefore)) hat₀ hbefore (hguid₀.trans hguid.symm)
  subst hpos
  exact ⟨rfl,Option.some.inj (hat₀.symm.trans hbefore)⟩

theorem Attached.attach (h : Attached w.store inv₀ inv draft)
    (hnodup : ((inv₀.contents w.store).map Item.guid).Nodup)
    (hcheck : ∃ pos it, inv₀.getItemByGuid w.store guid = some (pos,it) ∧
      (isBagPos pos = true → it.isBag w.store = false)) (receiver : Nat) :
    Attached w.store inv₀ (attach w receiver (inv,draft) guid).1
      (attach w receiver (inv,draft) guid).2 := by
  unfold TrinityCore.Mails.attach
  dsimp only
  cases hfound : inv.getItemByGuid w.store guid with
  | none => exact h
  | some found =>
    obtain ⟨pos,it⟩ := found
    obtain ⟨pos₀,it₀,hfound₀,hbag⟩ := hcheck
    obtain ⟨rfl,rfl⟩ := h.found hnodup hfound hfound₀
    obtain ⟨hat,-⟩ := getItemByGuid_some hfound
    have hall := h.nodup hnodup
    rw [Multiset.map_add,Multiset.nodup_add] at hall
    obtain ⟨hinv,-,hapart⟩ := hall
    have hnew : it₀.guid ∉ draft.items.map Item.guid := by
      intro hmem
      exact Multiset.disjoint_left.mp hapart
        (Multiset.mem_map_of_mem _ (mem_contents.mpr ⟨_,hat⟩)) (by simpa using hmem)
    have hremoved := contents_removeItem hinv hbag hat
    have hplaces := itemAt_removeItem hinv hbag hat
    have hperm : (draft.addItem { it₀ with owner := receiver }).items.Perm
        ({ it₀ with owner := receiver } :: draft.items) := addItem_perm hnew
    refine ⟨?_,?_⟩
    · intro p
      dsimp only
      rw [hplaces]
      by_cases hp : p = pos₀
      · subst hp
        exact .inl (Function.update_self _ _ _)
      · rw [Function.update_of_ne hp]
        exact h.stays p
    · dsimp only
      rw [Multiset.coe_eq_coe.mpr hperm,← h.pieces,← hremoved,← Multiset.cons_coe,
        ← Multiset.singleton_add]
      simp only [Multiset.map_add,Multiset.map_singleton]
      rw [add_assoc]
      rfl

theorem Attached.foldl (h : Attached w.store inv₀ inv draft)
    (hnodup : ((inv₀.contents w.store).map Item.guid).Nodup)
    (hcheck : ∀ guid ∈ itemGUIDs, ∃ pos it, inv₀.getItemByGuid w.store guid = some (pos,it) ∧
      (isBagPos pos = true → it.isBag w.store = false)) (receiver : Nat) :
    Attached w.store inv₀ (itemGUIDs.foldl (TrinityCore.Mails.attach w receiver) (inv,draft)).1
      (itemGUIDs.foldl (TrinityCore.Mails.attach w receiver) (inv,draft)).2 := by
  induction itemGUIDs generalizing inv draft with
  | nil => exact h
  | cons guid itemGUIDs ih =>
    rw [List.foldl_cons]
    rw [List.forall_mem_cons] at hcheck
    exact ih (h.attach hnodup hcheck.1 receiver) hcheck.2

end Attach

section Send

structure Sendable (w : World) (player : Nat) (moment : MailMoment) (req : SendRequest) (r : Realm) :
    Prop where
  receiver : w.getPlayerGUIDByName req.receiverName ≠ 0
  money : req.cost+req.money ≤ (r.characters player).money
  reqmoney : req.reqmoney = req.cost+req.money
  attachments : checkAttachments w player moment (w.getPlayerGUIDByName req.receiverName) req.COD
    (r.characters player).inventory req.itemGUIDs = .ok

theorem ok_of_check {check : Prop} [Decidable check] {failed next : MailResult}
    (hfailed : failed ≠ .ok) (h : (if check then failed else next) = .ok) :
    ¬check ∧ next = .ok := by
  split at h
  · exact absurd h hfailed
  · exact ⟨‹_›,h⟩

theorem sendable_of_ok (hplayer : player ∈ w.players)
    (h : sendMailResult w player moment req r = .ok) : Sendable w player moment req r := by
  have hmaster := w.not_gameMaster player hplayer
  unfold sendMailResult at h
  dsimp only at h
  obtain ⟨hcount,h⟩ := ok_of_check (by decide) h
  obtain ⟨-,h⟩ := ok_of_check (by decide) h
  obtain ⟨-,h⟩ := ok_of_check (by decide) h
  obtain ⟨-,h⟩ := ok_of_check (by decide) h
  obtain ⟨hreceiver,h⟩ := ok_of_check (by decide) h
  obtain ⟨-,h⟩ := ok_of_check (by decide) h
  obtain ⟨hwrap,h⟩ := ok_of_check (by decide) h
  obtain ⟨henough,h⟩ := ok_of_check (by decide) h
  obtain ⟨-,h⟩ := ok_of_check (by decide) h
  obtain ⟨-,h⟩ := ok_of_check (by decide) h
  obtain ⟨-,h⟩ := ok_of_check (by decide) h
  have hmoney := req.money_lt
  have hcost : req.cost ≤ 360 := by
    have hlen : req.itemGUIDs.length ≤ 12 := not_lt.mp hcount
    unfold SendRequest.cost
    split <;> omega
  have hreq : req.reqmoney = req.cost+req.money := by
    unfold SendRequest.reqmoney at hwrap ⊢
    omega
  refine ⟨hreceiver,?_,hreq,h⟩
  rw [hmaster] at henough
  rw [← hreq]
  simpa [Character.hasEnoughMoney] using henough

theorem attached_of_sendable (h : Sane w r) (hplayer : player ∈ w.players)
    (hsendable : Sendable w player moment req r) :
    Attached w.store (r.characters player).inventory
      (req.itemGUIDs.foldl (attach w (w.getPlayerGUIDByName req.receiverName))
        ((r.characters player).inventory,MailDraft.empty)).1
      (req.itemGUIDs.foldl (attach w (w.getPlayerGUIDByName req.receiverName))
        ((r.characters player).inventory,MailDraft.empty)).2 := by
  have hnodup : (((r.characters player).inventory.contents w.store).map Item.guid).Nodup :=
    Multiset.nodup_of_le (Multiset.map_le_map (Multiset.le_add_right _ _)) (h.nodup_goods hplayer)
  have hempty : Attached w.store (r.characters player).inventory (r.characters player).inventory
      MailDraft.empty := ⟨fun _ => .inr rfl,by simp [MailDraft.empty]⟩
  exact hempty.foldl hnodup
    (fun guid hguid => checkAttachment_ok (checkAttachments_ok hsendable.attachments guid hguid)) _

theorem passed_sendMail (h : Sane w r) (hplayer : player ∈ w.players) (moment : MailMoment)
    (req : SendRequest) : Passed w r (handleSendMail w player moment req r) := by
  unfold handleSendMail
  by_cases hok : sendMailResult w player moment req r = .ok
  · rw [if_pos hok]
    have hsendable := sendable_of_ok hplayer hok
    have hreceiver := hsendable.receiver
    have hmoney := hsendable.money
    have hreq := hsendable.reqmoney
    have hc := h.proper player hplayer
    have hpaid : ((r.characters player).modifyMoney (-int32 req.reqmoney)).1 =
        { r.characters player with money := (r.characters player).money-req.reqmoney } :=
      modifyMoney_sub (by omega) hc.money
    have hattached := attached_of_sendable h hplayer hsendable
    dsimp only
    rw [hpaid]
    dsimp only
    generalize req.itemGUIDs.foldl (attach w (w.getPlayerGUIDByName req.receiverName))
      ((r.characters player).inventory,MailDraft.empty) = attached at hattached ⊢
    have hproper := (hc.withMoney ((Nat.sub_le _ req.reqmoney).trans hc.money)).withInventory
      attached.1
    have haside : SetAside w req.money attached.2.items r
        ({ r with postage := r.postage+req.cost }.set player
          { r.characters player with
            money := (r.characters player).money-req.reqmoney, inventory := attached.1 }) := by
      refine setAside_of_set h req.cost hplayer hproper ?_ ?_
      · unfold Character.worth
        dsimp only
        omega
      · unfold Character.goods
        dsimp only
        rw [add_right_comm,Multiset.map_add,hattached.pieces,Multiset.map_add]
    refine haside.passed (delivered_sendMailTo ⟨attached.2.items,req.money,
      if req.itemGUIDs = [] then 0 else req.COD⟩ haside.proper (haside.nodup h) ?_ ?_ ?_ _ _)
    · exact (w.name_cases req.receiverName).resolve_left hreceiver
    · have hmax := hc.money
      dsimp only
      omega
    · exact fun _ => hplayer
  · rw [if_neg hok]
    exact .refl h

end Send

end TrinityCore.Mails
