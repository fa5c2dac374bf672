import TrinityCore.Mails.MailHandler
import TrinityCore.Lib.FirstMatch

set_option autoImplicit false

namespace TrinityCore.Mails

open Players

section InMails

variable {M : Type} [AddCommMonoid M] {f g : Mail → M} {mail mail' : List Mail} {m : Mail}

/-- The sum over the mails that are not deleted. -/
def inMails (f : Mail → M) (mail : List Mail) : M :=
  (mail.map fun m => if m.state = .deleted then 0 else f m).sum

@[simp] theorem inMails_nil : inMails f [] = 0 := rfl

theorem inMails_cons : inMails f (m :: mail) = (if m.state = .deleted then 0 else f m)+inMails f mail := rfl

theorem inMails_append : inMails f (mail ++ mail') = inMails f mail+inMails f mail' := by
  simp [inMails]

theorem inMails_split (f : Mail → M) (pre post : List Mail) (m : Mail) :
    inMails f (pre ++ m :: post) = (if m.state = .deleted then 0 else f m)+inMails f (pre ++ post) := by
  rw [inMails_append,inMails_cons,inMails_append,add_left_comm]

theorem inMails_congr (h : ∀ m ∈ mail, m.state ≠ .deleted → f m = g m) :
    inMails f mail = inMails g mail := by
  unfold inMails
  congr 1
  refine List.map_congr_left fun m hm => ?_
  split_ifs with hdeleted
  · rfl
  · exact h m hm hdeleted

theorem inMails_map {N : Type} [AddCommMonoid N] (φ : M →+ N) (f : Mail → M) (mail : List Mail) :
    φ (inMails f mail) = inMails (fun m => φ (f m)) mail := by
  induction mail with
  | nil => simp
  | cons m mail ih =>
    rw [inMails_cons,inMails_cons,map_add,ih]
    split_ifs <;> simp

theorem inMails_save (hstate : ∀ m s, f { m with state := s } = f m) :
    inMails f ((mail.filter fun m => m.state ≠ .deleted).map fun m => { m with state := .unchanged }) =
      inMails f mail := by
  induction mail with
  | nil => rfl
  | cons m mail ih =>
    by_cases hdeleted : m.state = .deleted
    · rw [List.filter_cons_of_neg (by simpa using hdeleted),inMails_cons,if_pos hdeleted,zero_add,ih]
    · rw [List.filter_cons_of_pos (by simpa using hdeleted),List.map_cons,inMails_cons,inMails_cons,
        if_neg hdeleted,if_neg (by simp),hstate,ih]

end InMails

def Mail.goods (mitems : Nat → Option Item) (m : Mail) : Multiset Item :=
  (m.items.filterMap mitems : List Item)

namespace Character

variable (c : Character)

def worth : Nat := c.money+inMails Mail.money c.mail

def goods (S : ItemStore) : Multiset Item :=
  c.inventory.contents S+inMails (Mail.goods c.mitems) c.mail

def listed : Multiset Nat := inMails (fun m => (m.items : Multiset Nat)) c.mail

def Linked : Prop :=
  ∀ m ∈ c.mail, m.state ≠ .deleted → ∀ guid ∈ m.items, ∃ it, c.mitems guid = some it ∧ it.guid = guid

end Character

structure Proper (w : World) (nextMailId : Nat) (c : Character) : Prop where
  money : c.money ≤ maxMoneyAmount
  mailMoney : ∀ m ∈ c.mail, m.money ≤ maxMoneyAmount
  payable : ∀ m ∈ c.mail, m.COD ≠ 0 → m.sender ∈ w.players
  linked : c.Linked
  ids : (c.mail.map Mail.messageID).Nodup
  fresh : ∀ m ∈ c.mail, m.messageID < nextMailId

section Mitems

variable {c : Character} {m : Mail} {S : ItemStore} {it : Item} {guid id : Nat}

theorem guids_goods {mitems : Nat → Option Item}
    (h : ∀ guid ∈ m.items, ∃ it, mitems guid = some it ∧ it.guid = guid) :
    (m.goods mitems).map Item.guid = m.items := by
  unfold Mail.goods
  rw [Multiset.map_coe]
  congr 1
  generalize m.items = items at h ⊢
  induction items with
  | nil => rfl
  | cons guid items ih =>
    rw [List.forall_mem_cons] at h
    obtain ⟨⟨it,hit,hguid⟩,hrest⟩ := h
    rw [List.filterMap_cons_some hit,List.map_cons,hguid,ih hrest]

theorem guids_mailed (h : c.Linked) :
    (inMails (Mail.goods c.mitems) c.mail).map Item.guid = c.listed := by
  have hmap := inMails_map (Multiset.mapAddMonoidHom Item.guid) (Mail.goods c.mitems) c.mail
  rw [Multiset.coe_mapAddMonoidHom] at hmap
  rw [hmap]
  exact inMails_congr fun m hm hstate => guids_goods (h m hm hstate)

theorem mem_inMails {α : Type} {f : Mail → Multiset α} {a : α} {mail : List Mail} :
    a ∈ inMails f mail ↔ ∃ m ∈ mail, m.state ≠ .deleted ∧ a ∈ f m := by
  induction mail with
  | nil => simp
  | cons m mail ih =>
    rw [inMails_cons,Multiset.mem_add,ih]
    by_cases hdeleted : m.state = .deleted <;> simp [hdeleted]

theorem goods_congr {mitems mitems' : Nat → Option Item}
    (h : ∀ guid ∈ m.items, mitems' guid = mitems guid) : m.goods mitems' = m.goods mitems := by
  unfold Mail.goods
  rw [List.filterMap_congr h]

end Mitems

section GetMail

variable {c : Character} {m m' : Mail} {pre post : List Mail} {id : Nat}

theorem getMail_split (h : c.getMail id = some m) : ∃ pre post, c.mail = pre ++ m :: post ∧
    m.messageID = id ∧ (∀ x ∈ pre, x.messageID ≠ id) ∧
    (∀ f, c.updateMail id f = { c with mail := pre ++ f m :: post }) ∧
    c.removeMail id = { c with mail := pre ++ post } := by
  obtain ⟨pre,post,hmail,hm,hpre⟩ := FirstMatch.split h
  refine ⟨pre,post,hmail,by simpa using hm,fun x hx => by simpa using hpre x hx,fun f => ?_,?_⟩
  · unfold Character.updateMail
    rw [hmail,FirstMatch.modify_findIdx f hpre hm]
  · unfold Character.removeMail
    rw [hmail,FirstMatch.eraseP_split hpre hm]

theorem getMail_of_split (hid : m.messageID = id) (hpre : ∀ x ∈ pre, x.messageID ≠ id) :
    ({ c with mail := pre ++ m :: post } : Character).getMail id = some m := by
  unfold Character.getMail
  rw [List.find?_eq_some_iff_append]
  exact ⟨by simpa using hid,pre,post,rfl,fun x hx => by simpa using hpre x hx⟩

end GetMail

section Proper

variable {w : World} {n : Nat} {c : Character} {m : Mail} {pre post mail : List Mail}

theorem Proper.mono {n' : Nat} (h : Proper w n c) (hn : n ≤ n') : Proper w n' c :=
  ⟨h.money,h.mailMoney,h.payable,h.linked,h.ids,fun m hm => (h.fresh m hm).trans_le hn⟩

theorem Proper.withMoney (h : Proper w n c) {money : Nat} (hmoney : money ≤ maxMoneyAmount) :
    Proper w n { c with money := money } :=
  ⟨hmoney,h.mailMoney,h.payable,h.linked,h.ids,h.fresh⟩

theorem Proper.withInventory (h : Proper w n c) (inventory : Inventory) :
    Proper w n { c with inventory := inventory } :=
  ⟨h.money,h.mailMoney,h.payable,h.linked,h.ids,h.fresh⟩

theorem Proper.sublist (h : Proper w n c) (hsub : mail.Sublist c.mail) :
    Proper w n { c with mail := mail } where
  money := h.money
  mailMoney := fun m hm => h.mailMoney m (hsub.subset hm)
  payable := fun m hm => h.payable m (hsub.subset hm)
  linked := fun m hm => h.linked m (hsub.subset hm)
  ids := (hsub.map Mail.messageID).nodup h.ids
  fresh := fun m hm => h.fresh m (hsub.subset hm)

theorem Proper.replace (h : Proper w n c) (m' : Mail) (hmail : c.mail = pre ++ m :: post)
    (hid : m'.messageID = m.messageID) (hmoney : m'.money ≤ maxMoneyAmount)
    (hCOD : m'.COD ≠ 0 → m'.sender ∈ w.players)
    (hitems : m'.state ≠ .deleted → m.state ≠ .deleted ∧ m'.items ⊆ m.items) :
    Proper w n { c with mail := pre ++ m' :: post } := by
  have hold : ∀ x ∈ pre ++ m' :: post, x = m' ∨ x ∈ c.mail := by
    intro x hx
    rw [hmail]
    simp only [List.mem_append,List.mem_cons] at hx ⊢
    tauto
  have hm : m ∈ c.mail := by simp [hmail]
  refine ⟨h.money,fun x hx => ?_,fun x hx => ?_,fun x hx hstate guid hguid => ?_,?_,fun x hx => ?_⟩
  · rcases hold x hx with rfl | hx
    · exact hmoney
    · exact h.mailMoney x hx
  · rcases hold x hx with rfl | hx
    · exact hCOD
    · exact h.payable x hx
  · rcases hold x hx with rfl | hx
    · exact h.linked m hm (hitems hstate).1 guid ((hitems hstate).2 hguid)
    · exact h.linked x hx hstate guid hguid
  · have hids := h.ids
    rw [hmail,List.map_append,List.map_cons] at hids
    rw [List.map_append,List.map_cons,hid]
    exact hids
  · rcases hold x hx with rfl | hx
    · rw [hid]
      exact h.fresh m hm
    · exact h.fresh x hx

theorem Proper.saveMail (h : Proper w n c) : Proper w n c.saveMail := by
  have hold : ∀ x ∈ c.saveMail.mail, ∃ m ∈ c.mail, m.state ≠ .deleted ∧
      x = { m with state := .unchanged } := by
    intro x hx
    obtain ⟨m,hm,rfl⟩ := List.mem_map.mp hx
    obtain ⟨hm,hstate⟩ := List.mem_filter.mp hm
    exact ⟨m,hm,by simpa using hstate,rfl⟩
  refine ⟨h.money,fun x hx => ?_,fun x hx => ?_,fun x hx _ guid hguid => ?_,?_,fun x hx => ?_⟩
  · obtain ⟨m,hm,-,rfl⟩ := hold x hx
    exact h.mailMoney m hm
  · obtain ⟨m,hm,-,rfl⟩ := hold x hx
    exact h.payable m hm
  · obtain ⟨m,hm,hstate,rfl⟩ := hold x hx
    exact h.linked m hm hstate guid hguid
  · have hmap : c.saveMail.mail.map Mail.messageID =
        (c.mail.filter fun m => m.state ≠ .deleted).map Mail.messageID := by
      simp [Character.saveMail,List.map_map,Function.comp_def]
    rw [hmap]
    exact (List.filter_sublist.map Mail.messageID).nodup h.ids
  · obtain ⟨m,hm,-,rfl⟩ := hold x hx
    exact h.fresh m hm

theorem Proper.withMItems (h : Proper w n c) {mitems : Nat → Option Item}
    (hsame : ∀ guid ∈ c.listed, mitems guid = c.mitems guid) :
    Proper w n { c with mitems := mitems } := by
  refine ⟨h.money,h.mailMoney,h.payable,fun m hm hstate guid hguid => ?_,h.ids,h.fresh⟩
  obtain ⟨it,hit,heq⟩ := h.linked m hm hstate guid hguid
  refine ⟨it,(hsame guid ?_).trans hit,heq⟩
  exact mem_inMails.mpr ⟨m,hm,hstate,by simpa using hguid⟩

end Proper

section Split

variable {c : Character} {m m' : Mail} {pre post : List Mail} {S : ItemStore}
  {mitems : Nat → Option Item}

theorem worth_replace (m' : Mail) (hmail : c.mail = pre ++ m :: post) :
    ({ c with mail := pre ++ m' :: post } : Character).worth+
      (if m.state = .deleted then 0 else m.money) =
        c.worth+(if m'.state = .deleted then 0 else m'.money) := by
  unfold Character.worth
  dsimp only
  rw [hmail,inMails_split,inMails_split]
  omega

theorem worth_remove (hmail : c.mail = pre ++ m :: post) (hstate : m.state ≠ .deleted) :
    ({ c with mail := pre ++ post } : Character).worth+m.money = c.worth := by
  unfold Character.worth
  rw [hmail,inMails_split,if_neg hstate]
  dsimp only
  omega

theorem listed_split (hmail : c.mail = pre ++ m :: post) (hstate : m.state ≠ .deleted) :
    c.listed = (m.items : Multiset Nat)+
      inMails (fun m => (m.items : Multiset Nat)) (pre ++ post) := by
  unfold Character.listed
  rw [hmail,inMails_split,if_neg hstate]

theorem goods_split (hmail : c.mail = pre ++ m :: post) (hstate : m.state ≠ .deleted) :
    c.goods S = ({ c with mail := pre ++ post } : Character).goods S+m.goods c.mitems := by
  unfold Character.goods
  rw [hmail,inMails_split,if_neg hstate]
  abel

theorem goods_replace (hmail : c.mail = pre ++ m :: post) (hstate : m.state ≠ .deleted)
    (hstate' : m'.state ≠ .deleted) (hitems : m'.items = m.items) :
    ({ c with mail := pre ++ m' :: post } : Character).goods S = c.goods S := by
  have hgoods : m'.goods c.mitems = m.goods c.mitems := by
    unfold Mail.goods
    rw [hitems]
  unfold Character.goods
  dsimp only
  rw [hmail,inMails_split,inMails_split,if_neg hstate,if_neg hstate',hgoods]

theorem goods_withMItems (hsame : ∀ guid ∈ c.listed, mitems guid = c.mitems guid) :
    ({ c with mitems := mitems } : Character).goods S = c.goods S := by
  unfold Character.goods
  congr 1
  refine inMails_congr fun m hm hlive => goods_congr fun guid hguid => hsame guid ?_
  exact mem_inMails.mpr ⟨m,hm,hlive,by simpa using hguid⟩

end Split

section Receive

variable {w : World} {n : Nat} {c : Character} {m : Mail} {items : List Item} {S : ItemStore}

def addMItems (items : List Item) (mitems : Nat → Option Item) : Nat → Option Item :=
  items.foldl (fun mitems it => Function.update mitems it.guid (some it)) mitems

theorem receive_eq (c : Character) (m : Mail) (items : List Item) : c.receive m items =
    { c with mail := m :: c.mail, mitems := addMItems items c.mitems } := by
  have hfold : ∀ c : Character, items.foldl Character.addMItem c =
      { c with mitems := addMItems items c.mitems } := by
    unfold addMItems
    induction items with
    | nil => exact fun _ => rfl
    | cons it items ih => exact fun c => ih (c.addMItem it)
  exact hfold { c with mail := m :: c.mail }

theorem addMItems_of_not_mem {mitems : Nat → Option Item} {guid : Nat}
    (h : guid ∉ items.map Item.guid) : addMItems items mitems guid = mitems guid := by
  unfold addMItems
  induction items generalizing mitems with
  | nil => rfl
  | cons it items ih =>
    rw [List.map_cons,List.mem_cons,not_or] at h
    rw [List.foldl_cons,ih h.2,Function.update_of_ne h.1]

theorem addMItems_of_mem {mitems : Nat → Option Item} {it : Item}
    (hnodup : (items.map Item.guid).Nodup) (h : it ∈ items) :
    addMItems items mitems it.guid = some it := by
  induction items generalizing mitems with
  | nil => simp at h
  | cons x items ih =>
    rw [List.map_cons,List.nodup_cons] at hnodup
    rcases List.mem_cons.mp h with rfl | h
    · exact (addMItems_of_not_mem hnodup.1).trans (Function.update_self _ _ _)
    · exact ih hnodup.2 h

theorem worth_receive (hstate : m.state ≠ .deleted) :
    (c.receive m items).worth = c.worth+m.money := by
  rw [receive_eq]
  unfold Character.worth
  dsimp only
  rw [inMails_cons,if_neg hstate]
  omega

theorem goods_receive (hstate : m.state ≠ .deleted) (hitems : m.items = items.map Item.guid)
    (hnodup : (items.map Item.guid).Nodup) (hnew : ∀ guid ∈ items.map Item.guid, guid ∉ c.listed) :
    (c.receive m items).goods S = c.goods S+(items : Multiset Item) := by
  have hmail : m.goods (addMItems items c.mitems) = (items : Multiset Item) := by
    have hfound : ∀ it ∈ items, (addMItems items c.mitems ∘ Item.guid) it = some it :=
      fun it hit => addMItems_of_mem hnodup hit
    unfold Mail.goods
    rw [hitems,List.filterMap_map,List.filterMap_congr hfound,List.filterMap_some]
  have hothers : inMails (Mail.goods (addMItems items c.mitems)) c.mail =
      inMails (Mail.goods c.mitems) c.mail := by
    refine inMails_congr fun x hx hlive => goods_congr fun guid hguid => ?_
    refine addMItems_of_not_mem fun hmem => hnew guid hmem ?_
    exact mem_inMails.mpr ⟨x,hx,hlive,by simpa using hguid⟩
  rw [receive_eq]
  unfold Character.goods
  dsimp only
  rw [inMails_cons,if_neg hstate,hmail,hothers]
  abel

theorem Proper.receive (h : Proper w n c) (hid : m.messageID = n) (hmoney : m.money ≤ maxMoneyAmount)
    (hCOD : m.COD ≠ 0 → m.sender ∈ w.players) (hitems : m.items = items.map Item.guid)
    (hnodup : (items.map Item.guid).Nodup) (hnew : ∀ guid ∈ items.map Item.guid, guid ∉ c.listed) :
    Proper w (n+1) (c.receive m items) := by
  rw [receive_eq]
  refine ⟨h.money,List.forall_mem_cons.mpr ⟨hmoney,h.mailMoney⟩,
    List.forall_mem_cons.mpr ⟨hCOD,h.payable⟩,List.forall_mem_cons.mpr ⟨fun _ guid hguid => ?_,
      fun x hx hlive guid hguid => ?_⟩,?_,List.forall_mem_cons.mpr ⟨by omega,fun x hx => ?_⟩⟩
  · rw [hitems] at hguid
    obtain ⟨it,hit,rfl⟩ := List.mem_map.mp hguid
    exact ⟨it,addMItems_of_mem hnodup hit,rfl⟩
  · obtain ⟨it,hit,heq⟩ := h.linked x hx hlive guid hguid
    refine ⟨it,(addMItems_of_not_mem fun hmem => hnew guid hmem ?_).trans hit,heq⟩
    exact mem_inMails.mpr ⟨x,hx,hlive,by simpa using hguid⟩
  · rw [List.map_cons,List.nodup_cons]
    refine ⟨fun hmem => ?_,h.ids⟩
    obtain ⟨x,hx,heq⟩ := List.mem_map.mp hmem
    have := h.fresh x hx
    omega
  · exact (h.fresh x hx).trans (Nat.lt_succ_self n)

end Receive

section Save

variable {c : Character} {S : ItemStore}

@[simp] theorem worth_saveMail : c.saveMail.worth = c.worth := by
  unfold Character.worth Character.saveMail
  dsimp only
  rw [inMails_save fun m s => rfl]

@[simp] theorem goods_saveMail : c.saveMail.goods S = c.goods S := by
  unfold Character.goods Character.saveMail
  dsimp only
  rw [inMails_save fun m s => rfl]

end Save

section Realm

variable {w : World} {r : Realm} {player : Nat} {c : Character}

@[simp] theorem characters_set : (r.set player c).characters player = c := Function.update_self _ _ _

theorem characters_set_of_ne {p : Nat} (h : p ≠ player) :
    (r.set player c).characters p = r.characters p := Function.update_of_ne h _ _

def Realm.worth (w : World) (r : Realm) : Nat :=
  ∑ player ∈ w.players, (r.characters player).worth

def Realm.goods (w : World) (r : Realm) : Multiset Item :=
  ∑ player ∈ w.players, (r.characters player).goods w.store

theorem sum_set {M : Type} [AddCommMonoid M] (f : Character → M) (h : player ∈ w.players) :
    (∑ p ∈ w.players, f ((r.set player c).characters p))+f (r.characters player) =
      (∑ p ∈ w.players, f (r.characters p))+f c := by
  rw [← Finset.add_sum_erase _ _ h,← Finset.add_sum_erase w.players (fun p => f (r.characters p)) h]
  have hrest : ∑ p ∈ w.players.erase player, f ((r.set player c).characters p) =
      ∑ p ∈ w.players.erase player, f (r.characters p) := by
    refine Finset.sum_congr rfl fun p hp => ?_
    rw [characters_set_of_ne (Finset.ne_of_mem_erase hp)]
  rw [hrest,characters_set]
  abel

theorem worth_set (h : player ∈ w.players) :
    (r.set player c).worth w+(r.characters player).worth = r.worth w+c.worth :=
  sum_set Character.worth h

theorem worth_nextItemGuid {n : Nat} :
    ({ r with nextItemGuid := n } : Realm).worth w = r.worth w :=
  rfl

theorem goods_set (h : player ∈ w.players) :
    (r.set player c).goods w+(r.characters player).goods w.store =
      r.goods w+c.goods w.store :=
  sum_set (fun c => c.goods w.store) h

theorem goods_le (h : player ∈ w.players) : (r.characters player).goods w.store ≤ r.goods w :=
  Finset.single_le_sum (f := fun p => (r.characters p).goods w.store) (fun _ _ => Multiset.zero_le _) h

end Realm

end TrinityCore.Mails
