import TrinityCore.Mails.Conservation

set_option autoImplicit false

namespace TrinityCore.Mails

open Players

section Money

variable {c : Character} {amount : Nat}

theorem int32_eq (h : amount ≤ maxMoneyAmount) : int32 amount = amount := by
  unfold int32
  unfold maxMoneyAmount at h
  rw [Int.bmod_eq_of_le (by omega) (by omega)]

theorem modifyMoney_add (h : amount ≤ maxMoneyAmount)
    (hmodified : (c.modifyMoney (int32 amount)).2 = true) :
    (c.modifyMoney (int32 amount)).1 = { c with money := c.money+amount } ∧
      (c.money ≤ maxMoneyAmount → c.money+amount ≤ maxMoneyAmount) := by
  rw [int32_eq h] at hmodified ⊢
  unfold Character.modifyMoney at hmodified ⊢
  have hnat : (amount : Int).toNat = amount := Int.toNat_natCast amount
  split_ifs at hmodified ⊢ with hzero hneg hless hadd
  · have hamount : amount = 0 := by omega
    subst hamount
    exact ⟨rfl,id⟩
  · omega
  · omega
  · rw [hnat] at hadd ⊢
    exact ⟨rfl,fun _ => by omega⟩

theorem modifyMoney_sub (h : amount ≤ c.money) (hmoney : c.money ≤ maxMoneyAmount) :
    (c.modifyMoney (-int32 amount)).1 = { c with money := c.money-amount } := by
  rw [int32_eq (h.trans hmoney)]
  unfold Character.modifyMoney
  split_ifs with hzero hneg hless hadd
  · have hamount : amount = 0 := by omega
    subst hamount
    rfl
  · rw [neg_neg,Int.toNat_natCast]
  · rw [neg_neg,Int.toNat_natCast] at hless
    have hamount : c.money-amount = 0 := by omega
    rw [hamount]
  · omega
  · omega

end Money

section Character

variable {w : World} {n mailId : Nat} {c : Character} {m : Mail} {S : ItemStore}

theorem takeMoney_kept (hc : Proper w n c) (hget : c.getMail mailId = some m)
    (hlive : m.state ≠ .deleted) (hmoney : c.money+m.money ≤ maxMoneyAmount) {c' : Character}
    (hc' : c' = (({ c with money := c.money+m.money } : Character).updateMail mailId fun m =>
      { m with money := 0, state := .changed }).saveMail) :
    Proper w n c' ∧ c'.worth = c.worth ∧ c'.goods S = c.goods S := by
  have hm := List.mem_of_find?_eq_some hget
  obtain ⟨pre,post,hmail,-,-,hupdate,-⟩ := getMail_split hget
  have hupdated : ({ c with money := c.money+m.money } : Character).updateMail mailId (fun m =>
      { m with money := 0, state := .changed }) =
        { c with
          money := c.money+m.money
          mail := pre ++ { m with money := 0, state := .changed } :: post } :=
    congrArg (fun c' : Character => { c' with money := c.money+m.money }) (hupdate fun m =>
      { m with money := 0, state := .changed })
  rw [hupdated] at hc'
  subst hc'
  have hreplaced := hc.replace { m with money := 0, state := .changed } hmail rfl
    (Nat.zero_le _) (hc.payable m hm) fun _ => ⟨hlive,List.Subset.refl _⟩
  refine ⟨(hreplaced.withMoney hmoney).saveMail,?_,?_⟩
  · rw [worth_saveMail]
    have hworth := worth_replace { m with money := 0, state := .changed } hmail
    rw [if_neg hlive,if_neg (by simp)] at hworth
    unfold Character.worth at hworth ⊢
    dsimp only at hworth ⊢
    omega
  · rw [goods_saveMail]
    exact goods_replace hmail hlive (by simp) rfl

theorem deleteMail_proper (hc : Proper w n c) (hget : c.getMail mailId = some m) :
    Proper w n (c.updateMail mailId fun m => { m with state := .deleted }) := by
  have hm := List.mem_of_find?_eq_some hget
  obtain ⟨pre,post,hmail,-,-,hupdate,-⟩ := getMail_split hget
  rw [hupdate]
  exact hc.replace { m with state := .deleted } hmail rfl (hc.mailMoney m hm)
    (hc.payable m hm) fun hlive => absurd rfl hlive

theorem deleteMail_live (hget : c.getMail mailId = some m) (hlive : m.state ≠ .deleted) :
    (c.updateMail mailId fun m => { m with state := .deleted }).worth+m.money = c.worth ∧
      (c.updateMail mailId fun m => { m with state := .deleted }).goods S+m.goods c.mitems =
        c.goods S := by
  obtain ⟨pre,post,hmail,-,-,hupdate,-⟩ := getMail_split hget
  rw [hupdate]
  constructor
  · have hworth := worth_replace { m with state := .deleted } hmail
    rw [if_neg hlive,if_pos rfl] at hworth
    exact hworth
  · rw [goods_split hmail hlive]
    unfold Character.goods
    rw [inMails_split,if_pos rfl,zero_add]

theorem deleteMail_deleted (hget : c.getMail mailId = some m) (hdeleted : m.state = .deleted) :
    c.updateMail mailId (fun m => { m with state := .deleted }) = c := by
  obtain ⟨pre,post,hmail,-,-,hupdate,-⟩ := getMail_split hget
  rw [hupdate,← hdeleted,← hmail]

theorem removeMail_kept (hc : Proper w n c) (hget : c.getMail mailId = some m)
    (hlive : m.state ≠ .deleted) : Proper w n (c.removeMail mailId) ∧
      (c.removeMail mailId).worth+m.money = c.worth ∧
      (c.removeMail mailId).goods S+m.goods c.mitems = c.goods S ∧
      c.listed = (m.items : Multiset Nat)+(c.removeMail mailId).listed := by
  obtain ⟨pre,post,hmail,-,-,-,hremove⟩ := getMail_split hget
  rw [hremove]
  have hsub : (pre ++ post).Sublist c.mail := by
    rw [hmail]
    exact (List.Sublist.refl pre).append (List.sublist_cons_self m post)
  exact ⟨hc.sublist hsub,worth_remove hmail hlive,(goods_split hmail hlive).symm,
    listed_split hmail hlive⟩

theorem addItem_perm {draft : MailDraft} {it : Item} (hnew : it.guid ∉ draft.items.map Item.guid) :
    (draft.addItem it).items.Perm (it :: draft.items) := by
  have hfilter : (draft.items.filter fun x => x.guid ≠ it.guid) = draft.items := by
    rw [List.filter_eq_self]
    intro x hx
    rw [decide_eq_true_eq]
    exact fun heq => hnew (heq ▸ List.mem_map_of_mem hx)
  unfold MailDraft.addItem
  dsimp only
  rw [hfilter]
  exact List.perm_orderedInsert _ _ _

theorem returnItems_spec (c : Character) (draft : MailDraft) {items : List Nat} (hnodup : items.Nodup)
    (hitems : ∀ guid ∈ items, ∃ it, c.mitems guid = some it ∧ it.guid = guid)
    (hnew : ∀ guid ∈ items, guid ∉ draft.items.map Item.guid) :
    (items.foldl returnItem (c,draft)).2.items.Perm (items.filterMap c.mitems ++ draft.items) ∧
      (items.foldl returnItem (c,draft)).2.COD = draft.COD ∧
      ∃ mitems, (items.foldl returnItem (c,draft)).1 = { c with mitems := mitems } ∧
        ∀ guid ∉ items, mitems guid = c.mitems guid := by
  induction items generalizing c draft with
  | nil => exact ⟨.refl _,rfl,c.mitems,rfl,fun _ _ => rfl⟩
  | cons guid items ih =>
    rw [List.nodup_cons] at hnodup
    rw [List.forall_mem_cons] at hitems hnew
    obtain ⟨⟨it,hit,hguid⟩,hitems⟩ := hitems
    have hother : ∀ g, g ≠ guid → (c.removeMItem guid).mitems g = c.mitems g :=
      fun g hne => Function.update_of_ne hne _ _
    have hstep : returnItem (c,draft) guid = (c.removeMItem guid,draft.addItem it) := by
      unfold returnItem
      rw [hit]
    have hadd := addItem_perm (hguid.symm ▸ hnew.1 : it.guid ∉ draft.items.map Item.guid)
    have hne : ∀ g ∈ items, g ≠ guid := fun g hg heq => hnodup.1 (heq ▸ hg)
    obtain ⟨hperm,hCOD,mitems,hmitems,hsame⟩ := ih (c.removeMItem guid)
      (draft.addItem it) hnodup.2
      (fun g hg => by rw [hother g (hne g hg)]; exact hitems g hg)
      (fun g hg hmem => by
        rw [(hadd.map Item.guid).mem_iff,List.map_cons,List.mem_cons,hguid] at hmem
        exact hmem.elim (hne g hg) (hnew.2 g hg))
    rw [List.foldl_cons,hstep]
    refine ⟨?_,hCOD,mitems,hmitems,fun g hg => ?_⟩
    · have hrest : items.filterMap (c.removeMItem guid).mitems = items.filterMap c.mitems :=
        List.filterMap_congr fun g hg => hother g (hne g hg)
      rw [hrest] at hperm
      rw [List.filterMap_cons_some hit,List.cons_append]
      exact hperm.trans ((hadd.append_left _).trans List.perm_middle)
    · rw [List.mem_cons,not_or] at hg
      exact (hsame g hg.2).trans (hother g hg.1)

end Character

section Requests

variable {w : World} {r : Realm} {player mailId : Nat} {moment : MailMoment} {m : Mail}

theorem passed_takeMoney (h : Sane w r) (hplayer : player ∈ w.players) (moment : MailMoment)
    (mailId : Nat) : Passed w r (handleMailTakeMoney player moment mailId r) := by
  unfold handleMailTakeMoney
  split
  · exact .refl h
  · rename_i m hopen
    dsimp only
    split_ifs with hmodified
    · obtain ⟨hget,hlive⟩ := openMail_some hopen
      have hc := h.proper player hplayer
      have hm := List.mem_of_find?_eq_some hget
      obtain ⟨hadd,hmoney⟩ := modifyMoney_add (hc.mailMoney m hm) hmodified
      rw [hadd]
      obtain ⟨hproper,hworth,hgoods⟩ := takeMoney_kept (S := w.store) hc hget hlive
        (hmoney hc.money) rfl
      refine (setAside_of_set h 0 hplayer hproper hworth ?_).passed_nothing
      rw [hgoods,Multiset.coe_nil,add_zero]
    · exact .refl h

theorem passed_delete (h : Sane w r) (hplayer : player ∈ w.players) (moment : MailMoment)
    (mailId : Nat) : Passed w r (handleMailDelete player moment mailId r) := by
  unfold handleMailDelete
  split_ifs with hopen
  · split
    · exact .refl h
    · rename_i m hget
      dsimp only
      split_ifs with hCOD hdeleted
      · exact .refl h
      · rw [deleteMail_deleted hget hdeleted]
        refine (setAside_of_set h 0 hplayer (h.proper player hplayer) rfl ?_).passed_nothing
        rw [Multiset.coe_nil,add_zero]
      · obtain ⟨hworth,hgoods⟩ := deleteMail_live (S := w.store) hget hdeleted
        have haside := setAside_of_set h 0 hplayer
          (deleteMail_proper (h.proper player hplayer) hget) hworth (congrArg _ hgoods)
        exact haside.passed (delivered_lose haside.proper _ _)
  · exact .refl h

theorem passed_returnToSender (h : Sane w r) (hplayer : player ∈ w.players) (moment : MailMoment)
    (hconnected : ∀ p, moment.isConnected p = true → p ∈ w.players ∨ p = w.ahbPlayerGUID)
    (mailId : Nat) : Passed w r (handleMailReturnToSender w player moment mailId r) := by
  unfold handleMailReturnToSender
  split
  · exact .refl h
  · rename_i m hopen
    obtain ⟨hget,hlive⟩ := openMail_some hopen
    have hc := h.proper player hplayer
    have hm := List.mem_of_find?_eq_some hget
    obtain ⟨hproper,hworth,hgoods,hlisted⟩ := removeMail_kept (S := w.store) hc hget hlive
    dsimp only
    split_ifs with hreturn
    · have hnodup := h.nodup_listed hplayer
      rw [hlisted,Multiset.nodup_add,Multiset.coe_nodup] at hnodup
      obtain ⟨hperm,hCOD,mitems,hmitems,hsame⟩ := returnItems_spec
        ((r.characters player).removeMail mailId) MailDraft.empty hnodup.1
        (hc.linked m hm hlive) (fun _ _ => List.not_mem_nil)
      have hunlisted : ∀ guid ∈ ((r.characters player).removeMail mailId).listed,
          mitems guid = ((r.characters player).removeMail mailId).mitems guid :=
        fun guid hguid => hsame guid fun hmem =>
          Multiset.disjoint_left.mp hnodup.2.2 (Multiset.mem_coe.mpr hmem) hguid
      rw [hmitems]
      rw [MailDraft.empty,List.append_nil] at hperm
      have hdraft : ((m.items.foldl returnItem
          ((r.characters player).removeMail mailId,MailDraft.empty)).2.items : Multiset Item) =
            m.goods (r.characters player).mitems := Multiset.coe_eq_coe.mpr hperm
      have haside : SetAside w m.money (m.items.foldl returnItem
          ((r.characters player).removeMail mailId,MailDraft.empty)).2.items r
            (r.set player { (r.characters player).removeMail mailId with mitems := mitems }) :=
        setAside_of_set h 0 hplayer (hproper.withMItems hunlisted) hworth (by
          rw [goods_withMItems hunlisted,hdraft,hgoods])
      exact haside.passed (delivered_sendReturnToSender { (m.items.foldl returnItem
        ((r.characters player).removeMail mailId,MailDraft.empty)).2 with money := m.money }
          haside.proper (haside.nodup h) (hc.mailMoney m hm) hCOD hconnected _ _ _ _)
    · have haside := setAside_of_set h 0 hplayer hproper hworth (congrArg _ hgoods)
      exact haside.passed (delivered_lose haside.proper _ _)

end Requests

end TrinityCore.Mails
