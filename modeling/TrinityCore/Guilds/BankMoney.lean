import TrinityCore.Guilds.Ranks

set_option autoImplicit false

/-!
The money of the guild bank. A withdrawal is held against a counter of the day and a limit of the
member's rank; both kinds of withdrawal ask for the same two rights, either of which is enough.
-/

namespace TrinityCore.Guilds

def moneyTab : Fin (guildBankMaxTabs+1) := Fin.last guildBankMaxTabs

def int32 (n : Nat) : Int := (BitVec.ofNat 32 n).toInt

def Character.modifyMoney (c : Character) (amount : Int) : Option Character :=
  if amount = 0 then some c
  else if hneg : amount < 0 then
    some { c with
      money := if (c.money : Int) > -amount then c.money-(-amount).toNat else 0
      money_le := by
        have := c.money_le
        split_ifs <;> omega }
  else if h : (c.money : Int) < maxMoneyAmount-amount then
    some { c with
      money := c.money+amount.toNat
      money_le := by omega }
  else none

/-- The player after a withdrawal. The money for a repair does not go through his hands. -/
def Character.receive (c : Character) (amount : Nat) (repair : Bool) : Option Character :=
  if repair then some c else c.modifyMoney (int32 amount)

def Member.getBankWithdrawValue (m : Member) (tab : Fin (guildBankMaxTabs+1)) : BitVec 32 :=
  if m.isRank grGuildmaster then unlimited else m.bankWithdraw tab

def Member.updateBankWithdrawValue (m : Member) (tab : Fin (guildBankMaxTabs+1)) (amount : Nat) :
    Member :=
  { m with
    bankWithdraw := Function.update m.bankWithdraw tab (m.bankWithdraw tab+BitVec.ofNat 32 amount) }

def Member.resetValues (m : Member) : Member := { m with bankWithdraw := fun _ => 0 }

namespace Guild

def getRankBankMoneyPerDay (g : Guild) (rankId : Nat) : BitVec 32 :=
  match g.getRankInfo rankId with
  | some r => r.bankMoneyPerDay
  | none => 0

def getMemberRemainingMoney (g : Guild) (m : Member) : BitVec 32 :=
  if m.rankId = grGuildmaster then unlimited
  else if g.getRankRights m.rankId &&& (grRightWithdrawRepair ||| grRightWithdrawGold) ≠ 0 then
    let remaining := g.getRankBankMoneyPerDay m.rankId-m.getBankWithdrawValue moneyTab
    if 0 < remaining.toInt then remaining else 0
  else 0

def modifyBankMoney (g : Guild) (amount : Nat) (add : Bool) : Guild × Bool :=
  if add then ({ g with bankMoney := (g.bankMoney+amount) % 2^64 },true)
  else if g.bankMoney < amount then (g,false)
  else ({ g with bankMoney := g.bankMoney-amount },true)

def resetTimes (g : Guild) : Guild := { g with members := g.members.map fun _ m => m.resetValues }

end Guild

namespace State

def setCharacter (s : State) (guid : Nat) (c : Character) : State :=
  { s with characters := Function.update s.characters guid (some c) }

def moneyOf (s : State) (guid : Nat) : Nat := ((s.characters guid).map (·.money)).getD 0

def handleMemberDepositMoney (s : State) (player : Nat) (c : Character) (amount : Nat) : State :=
  let s := { s with guild := (s.guild.modifyBankMoney amount true).1 }
  s.setCharacter player ((c.modifyMoney (-int32 amount)).getD c)

/-- The request of a player at the bank, who must be in the guild and have the money. -/
def handleGuildBankDepositMoney (s : State) (player amount : Nat) : State × Bool :=
  match s.characters player with
  | none => (s,false)
  | some c =>
    if amount ≠ 0 ∧ amount ≤ c.money ∧ c.guildId = s.guild.id then
      (s.handleMemberDepositMoney player c amount,true)
    else (s,false)

def handleMemberWithdrawMoney (s : State) (player : Nat) (c : Character) (amount : Nat)
    (repair : Bool) : State × Bool :=
  let amount := min amount maxMoneyAmount
  if s.guild.bankMoney < amount then (s,false)
  else
    match s.guild.getMember player with
    | none => (s,false)
    | some m =>
      if (s.guild.getMemberRemainingMoney m).toNat < amount then (s,false)
      else
        match c.receive amount repair with
        | none => (s,false)
        | some c' =>
          let s := s.setCharacter player c'
          let m := m.updateBankWithdrawValue moneyTab amount
          let s := { s with guild := { s.guild with members := s.guild.members.insert player m } }
          ({ s with guild := (s.guild.modifyBankMoney amount false).1 },true)

/-- The request of a player at the bank, or his repair bill. Neither is ever of nothing. -/
def handleGuildBankWithdrawMoney (s : State) (player amount : Nat) (repair : Bool) : State × Bool :=
  match s.characters player with
  | none => (s,false)
  | some c =>
    if amount ≠ 0 ∧ c.guildId = s.guild.id then s.handleMemberWithdrawMoney player c amount repair
    else (s,false)

end State

inductive BankEvent where
  | guild (e : Event)
  | deposit (player : Nat) (amount : BitVec 32)
  | withdraw (player : Nat) (amount : BitVec 32) (repair : Bool)
  | reset

/-- One step and whether it was done; what the guild does besides its bank counts as done. -/
def bankStep' (s : State) (e : BankEvent) : State × Bool :=
  if s.disbanded then (s,false)
  else
    match e with
    | .guild e => (step s e,true)
    | .deposit player amount => s.handleGuildBankDepositMoney player amount.toNat
    | .withdraw player amount repair => s.handleGuildBankWithdrawMoney player amount.toNat repair
    | .reset => ({ s with guild := s.guild.resetTimes },true)

def bankStep (s : State) (e : BankEvent) : State := (bankStep' s e).1

def done (s : State) (e : BankEvent) : Bool := (bankStep' s e).2

def State.totalMoney (s : State) : Nat :=
  s.guild.bankMoney+(s.guild.members.keys.map s.moneyOf).sum

def taken (player : Nat) (s : State) (e : BankEvent) : Nat :=
  match e with
  | .withdraw p amount _ => if p = player ∧ done s e = true then min amount.toNat maxMoneyAmount else 0
  | _ => 0

def withdrawn (player : Nat) : State → List BankEvent → Nat
  | _, [] => 0
  | s, e :: es => taken player s e+withdrawn player (bankStep s e) es

section Spec

variable {s s' : State} {player amount : Nat} {c : Character} {m : Member} {repair : Bool}

theorem int32_eq (h : amount ≤ maxMoneyAmount) : int32 amount = amount := by
  simp only [maxMoneyAmount] at h
  rw [int32,BitVec.toInt_eq_toNat_of_lt]
  · rw [BitVec.toNat_ofNat,Nat.mod_eq_of_lt (by omega)]
  · rw [BitVec.toNat_ofNat,Nat.mod_eq_of_lt (by omega)]
    omega

theorem modifyMoney_pos (h0 : 0 < amount) : (c.modifyMoney amount).isSome = true ↔
    c.money+amount < maxMoneyAmount := by
  unfold Character.modifyMoney
  rw [if_neg (by omega),dif_neg (by omega)]
  split_ifs with h
  · simp only [Option.isSome_some,true_iff]
    omega
  · simp only [Option.isSome_none,Bool.false_eq_true,false_iff]
    omega

theorem modifyMoney_pos_some {c' : Character} (h0 : 0 < amount)
    (h : c.modifyMoney amount = some c') : c'.money = c.money+amount ∧ c'.guildId = c.guildId := by
  unfold Character.modifyMoney at h
  rw [if_neg (by omega),dif_neg (by omega)] at h
  split_ifs at h
  cases h
  exact ⟨by simp,rfl⟩

theorem modifyMoney_neg (h0 : 0 < amount) (hle : amount ≤ c.money) :
    ∃ c', c.modifyMoney (-amount) = some c' ∧ c'.money = c.money-amount ∧ c'.guildId = c.guildId := by
  unfold Character.modifyMoney
  rw [if_neg (by omega),dif_pos (by omega)]
  refine ⟨_,rfl,?_,rfl⟩
  dsimp only
  split_ifs <;> omega

structure Passes (s : State) (player amount : Nat) (repair : Bool) (m : Member) : Prop where
  nonzero : amount ≠ 0
  member : s.guild.getMember player = some m
  enrolled : ∃ c, s.characters player = some c ∧ c.guildId = s.guild.id
  bank : min amount maxMoneyAmount ≤ s.guild.bankMoney
  remaining : min amount maxMoneyAmount ≤ (s.guild.getMemberRemainingMoney m).toNat
  purse : repair = false → s.moneyOf player+min amount maxMoneyAmount < maxMoneyAmount

def State.afterWithdraw (s : State) (player amount : Nat) (c : Character) (m : Member) : State :=
  { s with
    guild := { s.guild with
      members := s.guild.members.insert player (m.updateBankWithdrawValue moneyTab amount)
      bankMoney := s.guild.bankMoney-amount }
    characters := Function.update s.characters player (some c) }

def handed (amount : Nat) (repair : Bool) : Nat := if repair then 0 else amount

theorem receive_some {c' : Character} (h0 : 0 < amount) (hmax : amount ≤ maxMoneyAmount)
    (h : c.receive amount repair = some c') :
    c'.guildId = c.guildId ∧ c'.money = c.money+handed amount repair := by
  unfold Character.receive at h
  cases repair with
  | true =>
    cases h
    exact ⟨rfl,rfl⟩
  | false =>
    simp only [int32_eq hmax] at h
    have hm := modifyMoney_pos_some h0 h
    exact ⟨hm.2,hm.1⟩

theorem receive_isSome (h0 : 0 < amount) (hmax : amount ≤ maxMoneyAmount) :
    (c.receive amount repair).isSome = true ↔
      (repair = false → c.money+amount < maxMoneyAmount) := by
  unfold Character.receive
  cases repair with
  | true => simp
  | false => simp [int32_eq hmax,modifyMoney_pos h0]

theorem handleMemberWithdrawMoney_cases (hc : s.characters player = some c) (h0 : amount ≠ 0)
    (hid : c.guildId = s.guild.id) :
    ((∀ m, ¬ Passes s player amount repair m) ∧
      s.handleMemberWithdrawMoney player c amount repair = (s,false)) ∨
    ∃ m c', Passes s player amount repair m ∧ c'.guildId = c.guildId ∧
      c'.money = c.money+handed (min amount maxMoneyAmount) repair ∧
      s.handleMemberWithdrawMoney player c amount repair =
        (s.afterWithdraw player (min amount maxMoneyAmount) c' m,true) := by
  have hpos : 0 < min amount maxMoneyAmount := by
    simp only [maxMoneyAmount]
    omega
  have hle : min amount maxMoneyAmount ≤ maxMoneyAmount := Nat.min_le_right _ _
  have hmoney : s.moneyOf player = c.money := by simp [State.moneyOf,hc]
  unfold State.handleMemberWithdrawMoney
  dsimp only
  split
  · rename_i hbank
    exact .inl ⟨fun m h => absurd h.bank (Nat.not_le.mpr hbank),rfl⟩
  rename_i hbank
  cases hm : s.guild.getMember player with
  | none => exact .inl ⟨fun m h => absurd (hm.symm.trans h.member) (by simp),rfl⟩
  | some m =>
    dsimp only
    split
    · rename_i hrem
      refine .inl ⟨?_,rfl⟩
      intro m' h
      cases hm.symm.trans h.member
      exact absurd h.remaining (Nat.not_le.mpr hrem)
    rename_i hrem
    cases hp : c.receive (min amount maxMoneyAmount) repair with
    | none =>
      refine .inl ⟨?_,rfl⟩
      intro m' h
      have hpurse := (receive_isSome (c := c) hpos hle).mpr (hmoney ▸ h.purse)
      simp [hp] at hpurse
    | some c' =>
      obtain ⟨hguild,hgold⟩ := receive_some hpos hle hp
      refine .inr ⟨m,c',⟨h0,hm,⟨c,hc,hid⟩,by omega,by omega,?_⟩,hguild,hgold,?_⟩
      · rw [hmoney]
        exact (receive_isSome hpos hle).mp (by rw [hp]; rfl)
      · simp [Guild.modifyBankMoney,State.setCharacter,hbank,State.afterWithdraw]

theorem withdraw_cases (s : State) (player amount : Nat) (repair : Bool) :
    ((∀ m, ¬ Passes s player amount repair m) ∧
      s.handleGuildBankWithdrawMoney player amount repair = (s,false)) ∨
    ∃ m c c', Passes s player amount repair m ∧ s.characters player = some c ∧
      c'.guildId = c.guildId ∧
      c'.money = c.money+handed (min amount maxMoneyAmount) repair ∧
      s.handleGuildBankWithdrawMoney player amount repair =
        (s.afterWithdraw player (min amount maxMoneyAmount) c' m,true) := by
  unfold State.handleGuildBankWithdrawMoney
  cases hc : s.characters player with
  | none =>
    refine .inl ⟨?_,rfl⟩
    intro m h
    obtain ⟨c,hc',-⟩ := h.enrolled
    simp [hc] at hc'
  | some c =>
    dsimp only
    split
    · rename_i hreq
      rcases handleMemberWithdrawMoney_cases hc hreq.1 hreq.2 with h | ⟨m,c',h,hguild,hgold,heq⟩
      · exact .inl h
      · exact .inr ⟨m,c,c',h,rfl,hguild,hgold,heq⟩
    · rename_i hreq
      refine .inl ⟨fun m h => hreq ⟨h.nonzero,?_⟩,rfl⟩
      obtain ⟨c',hc',hid⟩ := h.enrolled
      cases hc.symm.trans hc'
      exact hid

structure Accepts (s : State) (player amount : Nat) (c : Character) : Prop where
  nonzero : amount ≠ 0
  character : s.characters player = some c
  enrolled : c.guildId = s.guild.id
  money : amount ≤ c.money

def State.afterDeposit (s : State) (player amount : Nat) (c : Character) : State :=
  { s with
    guild := { s.guild with bankMoney := (s.guild.bankMoney+amount) % 2^64 }
    characters := Function.update s.characters player (some c) }

theorem deposit_cases (s : State) (player amount : Nat) :
    ((∀ c, ¬ Accepts s player amount c) ∧
      s.handleGuildBankDepositMoney player amount = (s,false)) ∨
    ∃ c c', Accepts s player amount c ∧ c'.guildId = c.guildId ∧ c'.money = c.money-amount ∧
      s.handleGuildBankDepositMoney player amount = (s.afterDeposit player amount c',true) := by
  unfold State.handleGuildBankDepositMoney
  cases hc : s.characters player with
  | none => exact .inl ⟨fun c h => absurd (hc.symm.trans h.character) (by simp),rfl⟩
  | some c =>
    dsimp only
    split
    · rename_i hreq
      obtain ⟨c',hc',hgold,hguild⟩ := modifyMoney_neg (Nat.pos_of_ne_zero hreq.1) hreq.2.1
      refine .inr ⟨c,c',⟨hreq.1,hc,hreq.2.2,hreq.2.1⟩,hguild,hgold,?_⟩
      rw [State.handleMemberDepositMoney,int32_eq (hreq.2.1.trans c.money_le),hc']
      rfl
    · rename_i hreq
      refine .inl ⟨?_,rfl⟩
      intro c' h
      cases hc.symm.trans h.character
      exact hreq ⟨h.nonzero,h.money,h.enrolled⟩

end Spec

section Invariant

variable {s s' : State} {e : Event} {k player amount : Nat} {c : Character} {m : Member}

/-- What the bank relies on: the first rank has every right, no counter has come to its end, and
only members are in the guild. -/
structure BankInv (s : State) : Prop where
  wf : Wf s
  master : ∃ r, s.guild.ranks[0]? = some r ∧ r.rights = grRightAll
  counters : ∀ k m, s.guild.members.find? k = some m → (m.bankWithdraw moneyTab).toNat < 2^31
  onlyMembers : ∀ k, s.guildIdOf k = s.guild.id → k ∈ s.guild.members.keys

theorem Effect.master (h : Wf s) (hm : ∃ r, s.guild.ranks[0]? = some r ∧ r.rights = grRightAll)
    (he : Effect s e s') (hd : s'.disbanded = false) :
    ∃ r, s'.guild.ranks[0]? = some r ∧ r.rights = grRightAll := by
  obtain ⟨r,hr,hall⟩ := id hm
  cases he with
  | same => exact hm
  | enlist => exact hm
  | leave => exact hm
  | succeed => simpa using hm
  | disband _ hdis => simp [hdis] at hd
  | handOver => simpa using hm
  | demote => simpa using hm
  | promote => simpa using hm
  | edit player rankId name rights money tabs _ _ =>
    simp only [List.getElem?_modify,hr]
    split_ifs with h0
    · refine ⟨_,rfl,?_⟩
      rw [editRank_rights,h.numbered.rankId_eq hr]
      exact if_pos rfl
    · exact ⟨r,rfl,hall⟩
  | addRank name hlt =>
    rw [createRank_ranks hlt,List.getElem?_append_left (List.getElem?_eq_some_iff.mp hr).1]
    exact hm
  | removeRank player rankId _ _ hmin _ =>
    refine ⟨r,?_,hall⟩
    simp only [guildRanksMinCount] at hmin
    simp only [List.getElem?_dropLast]
    rw [if_pos (by omega)]
    exact hr
  | character => exact hm

theorem Effect.counters
    (hc : ∀ k m, s.guild.members.find? k = some m → (m.bankWithdraw moneyTab).toNat < 2^31)
    (he : Effect s e s') (hd : s'.disbanded = false) (hm : s'.guild.members.find? k = some m) :
    (m.bankWithdraw moneyTab).toNat < 2^31 := by
  cases he with
  | same => exact hc k m hm
  | enlist guid new c hid hch hguid hzero hrank =>
    simp only [setInGuild_guild,OrderedMap.find?_insert] at hm
    split_ifs at hm with hk
    · cases hm
      rw [hzero]
      decide
    · exact hc k m hm
  | leave guid _ =>
    simp only [eraseMember_members,OrderedMap.find?_erase] at hm
    split_ifs at hm
    exact hc k m hm
  | succeed k' m' hm' _ =>
    simp only [eraseMember_members,OrderedMap.find?_erase] at hm
    split_ifs at hm
    obtain ⟨m1,hm1,hsame⟩ := changeRank_bankWithdraw hm
    rw [hsame]
    exact hc k m1 hm1
  | disband _ hdis => simp [hdis] at hd
  | handOver player k' name old m' _ _ _ _ =>
    obtain ⟨m1,hm1,hsame⟩ := changeRank_bankWithdraw hm
    obtain ⟨m2,hm2,hsame2⟩ := changeRank_bankWithdraw hm1
    rw [hsame,hsame2]
    exact hc k m2 hm2
  | demote k' m' hm' hpos hlt =>
    obtain ⟨m1,hm1,hsame⟩ := changeRank_bankWithdraw hm
    rw [hsame]
    exact hc k m1 hm1
  | promote k' m' hm' hlt =>
    obtain ⟨m1,hm1,hsame⟩ := changeRank_bankWithdraw hm
    rw [hsame]
    exact hc k m1 hm1
  | edit => exact hc k m hm
  | addRank name _ => exact hc k m (by simpa using hm)
  | removeRank => exact hc k m hm
  | character => exact hc k m hm

theorem mem_keys_changeRank {g : Guild} {r i : Nat} :
    i ∈ (g.changeRank k r).members.keys ↔ i ∈ g.members.keys := by
  simp only [OrderedMap.mem_keys,changeRank_find]
  split_ifs with hi
  · rw [hi]
    cases g.members.find? k <;> simp
  · rfl

theorem guildIdOf_eraseMember {guid : Nat} (hid : s.guild.id ≠ 0)
    (hk : (s.eraseMember guid).guildIdOf k = (s.eraseMember guid).guild.id) :
    k ≠ guid ∧ s.guildIdOf k = s.guild.id := by
  rw [State.eraseMember,guildIdOf_setInGuild] at hk
  split_ifs at hk with hkg
  · cases hch : s.characters guid with
    | none => simp [hch,hid.symm] at hk
    | some c => simp [hch,hid.symm] at hk
  · exact ⟨hkg,hk⟩

theorem Effect.onlyMembers (h : Wf s)
    (hin : ∀ k, s.guildIdOf k = s.guild.id → k ∈ s.guild.members.keys) (he : Effect s e s')
    (hd : s'.disbanded = false) (hk : s'.guildIdOf k = s'.guild.id) :
    k ∈ s'.guild.members.keys := by
  cases he with
  | same => exact hin k hk
  | enlist guid new c hid hch hguid hzero hrank =>
    rw [guildIdOf_setInGuild] at hk
    simp only [setInGuild_guild,OrderedMap.mem_keys_insert]
    split_ifs at hk with hkg
    · exact .inl hkg
    · exact .inr (hin k hk)
  | leave guid _ =>
    obtain ⟨hkg,hk⟩ := guildIdOf_eraseMember h.idPos hk
    simp only [eraseMember_members,OrderedMap.mem_keys_erase]
    exact ⟨hkg,hin k hk⟩
  | succeed k' m' hm' _ =>
    obtain ⟨hkg,hk⟩ := guildIdOf_eraseMember (by simpa using h.idPos) hk
    simp only [eraseMember_members,OrderedMap.mem_keys_erase]
    exact ⟨hkg,mem_keys_changeRank.mpr (hin k (hk.trans setLeaderGUID_id))⟩
  | disband _ hdis => simp [hdis] at hd
  | handOver player k' name old m' _ _ _ _ =>
    exact mem_keys_changeRank.mpr (mem_keys_changeRank.mpr (hin k (hk.trans (by simp))))
  | demote k' m' hm' hpos hlt =>
    exact mem_keys_changeRank.mpr (hin k (hk.trans (by simp)))
  | promote k' m' hm' hlt =>
    exact mem_keys_changeRank.mpr (hin k (hk.trans (by simp)))
  | edit => exact hin k hk
  | addRank name _ =>
    rw [createRank_members]
    exact hin k (hk.trans (by simp))
  | removeRank => exact hin k hk
  | character guid c hc =>
    by_cases hkg : k = guid
    · subst hkg
      refine hc.mpr ?_
      simpa [State.guildIdOf] using hk
    · exact hin k (by simpa [State.guildIdOf,hkg] using hk)

/-- The guild after a step of its bank: the ranks, the members' places in them and who is in the
guild are as before. -/
structure SameRoll (s s' : State) : Prop where
  ranks : s'.guild.ranks = s.guild.ranks
  id : s'.guild.id = s.guild.id
  disbanded : s'.disbanded = s.disbanded
  guildIdOf : ∀ k, s'.guildIdOf k = s.guildIdOf k
  keys : s'.guild.members.keys = s.guild.members.keys
  place : ∀ k m', s'.guild.members.find? k = some m' →
    ∃ m, s.guild.members.find? k = some m ∧ m'.guid = m.guid ∧ m'.rankId = m.rankId

theorem SameRoll.wf (h : SameRoll s s') (hwf : Wf s) : Wf s' := by
  refine ⟨h.ranks ▸ hwf.numbered,h.id ▸ hwf.idPos,?_,?_,?_⟩
  · intro k m' hm'
    obtain ⟨m,hm,hguid,-⟩ := h.place k m' hm'
    exact hguid.trans (hwf.keyed k m hm)
  · intro k m' hm'
    obtain ⟨m,hm,-,hrank⟩ := h.place k m' hm'
    exact hrank ▸ hwf.low k m hm
  · intro k m' hm'
    obtain ⟨m,hm,-⟩ := h.place k m' hm'
    rw [h.guildIdOf,h.id]
    exact hwf.enrolled k m hm

theorem guildIdOf_update {c' : Character} (hc : s.characters player = some c)
    (hid : c'.guildId = c.guildId) (hs : s'.characters = Function.update s.characters player (some c'))
    (k : Nat) : s'.guildIdOf k = s.guildIdOf k := by
  by_cases hk : k = player
  · subst hk
    simp [State.guildIdOf,hs,hc,hid]
  · simp [State.guildIdOf,hs,hk]

theorem sameRoll_afterDeposit {c' : Character} (h : Accepts s player amount c)
    (hid : c'.guildId = c.guildId) : SameRoll s (s.afterDeposit player amount c') :=
  ⟨rfl,rfl,rfl,guildIdOf_update h.character hid rfl,rfl,fun _ m hm => ⟨m,hm,rfl,rfl⟩⟩

theorem sameRoll_afterWithdraw {c' : Character} (hc : s.characters player = some c)
    (hm : s.guild.getMember player = some m) (hid : c'.guildId = c.guildId) :
    SameRoll s (s.afterWithdraw player amount c' m) := by
  refine ⟨rfl,rfl,rfl,guildIdOf_update hc hid rfl,?_,?_⟩
  · exact OrderedMap.keys_insert_of_mem (OrderedMap.mem_keys.mpr ⟨m,hm⟩)
  · intro k m' hm'
    simp only [State.afterWithdraw,OrderedMap.find?_insert] at hm'
    split_ifs at hm' with hk
    · cases hm'
      exact ⟨m,hk ▸ hm,rfl,rfl⟩
    · exact ⟨m',hm',rfl,rfl⟩

theorem sameRoll_resetTimes : SameRoll s { s with guild := s.guild.resetTimes } := by
  refine ⟨rfl,rfl,rfl,fun _ => rfl,OrderedMap.keys_map _,?_⟩
  intro k m' hm'
  simp only [Guild.resetTimes,OrderedMap.find?_map] at hm'
  obtain ⟨m,hm,rfl⟩ := Option.map_eq_some_iff.mp hm'
  exact ⟨m,hm,rfl,rfl⟩

end Invariant

section Steps

variable {s s' : State} {k player : Nat} {c : Character} {m : Member} {repair : Bool}
  {amount : BitVec 32}

/-- What a step of the bank should do. The money of a deposit or a withdrawal is all there
afterwards, no counter comes to its end, and only someone with the right to it takes it. -/
def BankSound (s : State) (e : BankEvent) : Prop :=
  match e with
  | .deposit _ amount =>
    (bankStep s e).totalMoney = s.totalMoney ∧
    (done s e = true → (bankStep s e).guild.bankMoney = s.guild.bankMoney+amount.toNat)
  | .withdraw player amount repair =>
    (repair = false → (bankStep s e).totalMoney = s.totalMoney) ∧
    (done s e = true → ∃ m m', s.guild.getMember player = some m ∧
      (bankStep s e).guild.getMember player = some m' ∧
      (bankStep s e).guild.bankMoney+min amount.toNat maxMoneyAmount = s.guild.bankMoney ∧
      (m'.bankWithdraw moneyTab).toInt =
        (m.bankWithdraw moneyTab).toInt+(min amount.toNat maxMoneyAmount : Nat) ∧
      s.guild.getRankRights m.rankId &&&
        (if repair then grRightWithdrawRepair ||| grRightWithdrawGold else grRightWithdrawGold) ≠ 0)
  | _ => True

/-- The bank has room for the money, the counter of the day too, and who takes the money in hand
has the right to. -/
def BankOk (s : State) (e : BankEvent) : Prop :=
  match e with
  | .deposit player amount =>
    ∀ c, Accepts s player amount.toNat c → s.guild.bankMoney+amount.toNat < 2^64
  | .withdraw player amount repair =>
    ∀ m, Passes s player amount.toNat repair m →
      (repair = false → s.guild.getRankRights m.rankId &&& grRightWithdrawGold ≠ 0) ∧
      (m.bankWithdraw moneyTab).toNat+min amount.toNat maxMoneyAmount < 2^31
  | _ => True

theorem sum_map_change {l : List Nat} {f f' : Nat → Nat} (hl : l.Nodup) (hk : k ∈ l)
    (hsame : ∀ i, i ≠ k → f' i = f i) : (l.map f').sum+f k = (l.map f).sum+f' k := by
  have hrest : (l.erase k).map f' = (l.erase k).map f := by
    refine List.map_congr_left fun i hi => hsame i ?_
    rintro rfl
    exact hl.not_mem_erase hi
  have h1 := List.sum_map_erase f hk
  have h2 := List.sum_map_erase f' hk
  rw [hrest] at h2
  omega

theorem totalMoney_update {a b : Nat} (hk : player ∈ s.guild.members.keys)
    (hkeys : s'.guild.members.keys = s.guild.members.keys)
    (hother : ∀ i, i ≠ player → s'.moneyOf i = s.moneyOf i)
    (hown : s'.moneyOf player+a = s.moneyOf player+b)
    (hbank : s'.guild.bankMoney+b = s.guild.bankMoney+a) : s'.totalMoney = s.totalMoney := by
  have h := sum_map_change (OrderedMap.nodup_keys s.guild.members) hk hother
  rw [State.totalMoney,State.totalMoney,hkeys]
  omega

theorem moneyOf_update (s s' : State) {c' : Character}
    (hs : s'.characters = Function.update s.characters player (some c')) :
    s'.moneyOf player = c'.money ∧ ∀ i, i ≠ player → s'.moneyOf i = s.moneyOf i := by
  refine ⟨by simp [State.moneyOf,hs],?_⟩
  intro i hi
  simp [State.moneyOf,hs,hi]

theorem moneyOf_eq (hc : s.characters player = some c) : s.moneyOf player = c.money := by
  simp [State.moneyOf,hc]

theorem totalMoney_afterDeposit {c' : Character} (h : BankInv s)
    (ha : Accepts s player amount.toNat c) (hmoney : c'.money = c.money-amount.toNat)
    (hbank : s.guild.bankMoney+amount.toNat < 2^64) :
    (s.afterDeposit player amount.toNat c').totalMoney = s.totalMoney := by
  have hup := moneyOf_update s (s.afterDeposit player amount.toNat c') rfl
  have hin : player ∈ s.guild.members.keys := h.onlyMembers player (by
    rw [← ha.enrolled]
    simp [State.guildIdOf,ha.character])
  refine totalMoney_update (a := amount.toNat) (b := 0) hin rfl hup.2 ?_ ?_
  · rw [hup.1,moneyOf_eq ha.character,hmoney]
    have := ha.money
    omega
  · exact Nat.mod_eq_of_lt hbank

theorem totalMoney_afterWithdraw {c' : Character} (hp : Passes s player amount.toNat false m)
    (hc : s.characters player = some c)
    (hmoney : c'.money = c.money+min amount.toNat maxMoneyAmount) :
    (s.afterWithdraw player (min amount.toNat maxMoneyAmount) c' m).totalMoney = s.totalMoney := by
  have hin : player ∈ s.guild.members.keys := OrderedMap.mem_keys.mpr ⟨m,hp.member⟩
  have hup := moneyOf_update s (s.afterWithdraw player (min amount.toNat maxMoneyAmount) c' m)
    rfl
  refine totalMoney_update (a := 0) (b := min amount.toNat maxMoneyAmount) hin
    (OrderedMap.keys_insert_of_mem hin) hup.2 ?_ ?_
  · rw [hup.1,moneyOf_eq hc,hmoney]
    rfl
  · have := hp.bank
    simp only [State.afterWithdraw]
    omega

theorem remaining_bound {g : Guild} {a : Nat} (hrank : m.rankId ≠ grGuildmaster) (h0 : 0 < a)
    (hlt : (m.bankWithdraw moneyTab).toNat < 2^31)
    (h : a ≤ (g.getMemberRemainingMoney m).toNat) :
    g.getRankRights m.rankId &&& (grRightWithdrawRepair ||| grRightWithdrawGold) ≠ 0 ∧
      (m.bankWithdraw moneyTab).toNat+a ≤ (g.getRankBankMoneyPerDay m.rankId).toNat ∧
      (g.getRankBankMoneyPerDay m.rankId).toNat-(m.bankWithdraw moneyTab).toNat < 2^31 := by
  unfold Guild.getMemberRemainingMoney at h
  rw [if_neg hrank] at h
  split_ifs at h with hright
  · have hval : m.getBankWithdrawValue moneyTab = m.bankWithdraw moneyTab := by
      simp [Member.getBankWithdrawValue,Member.isRank,hrank]
    simp only [hval] at h
    generalize g.getRankBankMoneyPerDay m.rankId = limit at h ⊢
    generalize m.bankWithdraw moneyTab = w at h hlt ⊢
    refine ⟨hright,?_⟩
    have hl := limit.isLt
    split_ifs at h with hpos
    · -- a limit below the counter gives a negative difference
      rw [BitVec.toInt_eq_toNat_cond] at hpos
      rw [BitVec.toNat_sub] at h hpos
      split_ifs at hpos <;> omega
    · simp at h
      omega
  · simp at h
    omega

theorem bankStep_deposit (hd : s.disbanded = false) (player : Nat) (amount : BitVec 32) :
    bankStep' s (.deposit player amount) = s.handleGuildBankDepositMoney player amount.toNat := by
  simp [bankStep',hd]

theorem bankStep_withdraw (hd : s.disbanded = false) (player : Nat) (amount : BitVec 32)
    (repair : Bool) : bankStep' s (.withdraw player amount repair) =
      s.handleGuildBankWithdrawMoney player amount.toNat repair := by
  simp [bankStep',hd]

theorem getRankRights_master (h : BankInv s) : s.guild.getRankRights grGuildmaster = grRightAll := by
  obtain ⟨r,hr,hall⟩ := h.master
  have hinfo : s.guild.getRankInfo grGuildmaster = some r := by
    rw [h.wf.getRankInfo]
    exact hr
  rw [Guild.getRankRights,hinfo]
  exact hall

theorem Passes.right (h : BankInv s) (hp : Passes s player amount.toNat repair m) :
    s.guild.getRankRights m.rankId &&& (grRightWithdrawRepair ||| grRightWithdrawGold) ≠ 0 := by
  by_cases hrank : m.rankId = grGuildmaster
  · rw [hrank,getRankRights_master h]
    decide
  · have h0 : 0 < min amount.toNat maxMoneyAmount := by
      have := hp.nonzero
      simp only [maxMoneyAmount]
      omega
    exact (remaining_bound hrank h0 (h.counters player m hp.member) hp.remaining).1

theorem toInt_add_iff {w : BitVec 32} {a : Nat} (hw : w.toNat < 2^31) (ha : a ≤ maxMoneyAmount) :
    (w+BitVec.ofNat 32 a).toInt = w.toInt+a ↔ w.toNat+a < 2^31 := by
  simp only [maxMoneyAmount] at ha
  rw [BitVec.toInt_eq_toNat_cond,BitVec.toInt_eq_toNat_cond,BitVec.toNat_add,BitVec.toNat_ofNat]
  split_ifs <;> omega

theorem afterWithdraw_getMember {a : Nat} : (s.afterWithdraw player a c m).guild.getMember player =
    some (m.updateBankWithdrawValue moneyTab a) := by
  simp [State.afterWithdraw,Guild.getMember,OrderedMap.find?_insert]

theorem updateBankWithdrawValue_moneyTab (a : Nat) :
    (m.updateBankWithdrawValue moneyTab a).bankWithdraw moneyTab =
      m.bankWithdraw moneyTab+BitVec.ofNat 32 a := by
  simp [Member.updateBankWithdrawValue]

theorem bankSound_deposit_iff (h : BankInv s) (hd : s.disbanded = false) :
    BankSound s (.deposit player amount) ↔ BankOk s (.deposit player amount) := by
  have hstep := bankStep_deposit hd player amount
  rcases deposit_cases s player amount.toNat with ⟨hno,heq⟩ | ⟨c,c',ha,hguild,hmoney,heq⟩
  · rw [heq] at hstep
    simp [BankSound,BankOk,bankStep,done,hstep,hno]
  · rw [heq] at hstep
    simp only [BankSound,BankOk,bankStep,done,hstep]
    constructor
    · intro hsound c _
      have hbank := hsound.2 trivial
      simp only [State.afterDeposit] at hbank
      omega
    · intro hok
      have hlt := hok c ha
      exact ⟨totalMoney_afterDeposit h ha hmoney hlt,fun _ => Nat.mod_eq_of_lt hlt⟩

theorem bankSound_withdraw_iff (h : BankInv s) (hd : s.disbanded = false) :
    BankSound s (.withdraw player amount repair) ↔ BankOk s (.withdraw player amount repair) := by
  have hstep := bankStep_withdraw hd player amount repair
  rcases withdraw_cases s player amount.toNat repair with
    ⟨hno,heq⟩ | ⟨m,c,c',hp,hc,hguild,hmoney,heq⟩
  · rw [heq] at hstep
    simp [BankSound,BankOk,bankStep,done,hstep,hno]
  · rw [heq] at hstep
    have hle : min amount.toNat maxMoneyAmount ≤ maxMoneyAmount := Nat.min_le_right _ _
    have hcount := toInt_add_iff (h.counters player m hp.member) hle
    simp only [BankSound,BankOk,bankStep,done,hstep,afterWithdraw_getMember,forall_const]
    constructor
    · intro hsound m' hp'
      cases hp.member.symm.trans hp'.member
      obtain ⟨m1,m2,hm1,hm2,-,hint,hright⟩ := hsound.2
      cases hp.member.symm.trans hm1
      cases hm2
      rw [updateBankWithdrawValue_moneyTab] at hint
      refine ⟨?_,hcount.mp hint⟩
      rintro rfl
      exact hright
    · intro hok
      obtain ⟨hgold,hlt⟩ := hok m hp
      refine ⟨?_,m,_,hp.member,rfl,?_,?_,?_⟩
      · rintro rfl
        exact totalMoney_afterWithdraw hp hc hmoney
      · have := hp.bank
        simp only [State.afterWithdraw]
        omega
      · rw [updateBankWithdrawValue_moneyTab]
        exact hcount.mpr hlt
      · cases repair with
        | true => exact hp.right h
        | false => exact hgold rfl

theorem bankStep_of_disbanded (hd : s.disbanded = true) (e : BankEvent) :
    bankStep s e = s ∧ done s e = false := by
  simp [bankStep,done,bankStep',hd]

theorem SameRoll.bankInv (hroll : SameRoll s s') (h : BankInv s)
    (hcount : ∀ k m, s'.guild.members.find? k = some m → (m.bankWithdraw moneyTab).toNat < 2^31) :
    BankInv s' := by
  refine ⟨hroll.wf h.wf,hroll.ranks ▸ h.master,hcount,?_⟩
  intro k hk
  rw [hroll.guildIdOf,hroll.id] at hk
  rw [hroll.keys]
  exact h.onlyMembers k hk

theorem bankInv_afterWithdraw {a : Nat} {c' : Character} (h : BankInv s)
    (hp : s.guild.getMember player = some m) (hc : s.characters player = some c)
    (hguild : c'.guildId = c.guildId) (hlt : (m.bankWithdraw moneyTab).toNat+a < 2^31) :
    BankInv (s.afterWithdraw player a c' m) := by
  refine (sameRoll_afterWithdraw hc hp hguild).bankInv h ?_
  intro k m' hm'
  simp only [State.afterWithdraw,OrderedMap.find?_insert] at hm'
  split_ifs at hm' with hk
  · cases hm'
    rw [updateBankWithdrawValue_moneyTab,BitVec.toNat_add,BitVec.toNat_ofNat]
    omega
  · exact h.counters k m' hm'

theorem bankStep_inv {e : BankEvent} (h : s.disbanded = false → BankInv s) (hok : BankOk s e)
    (hd' : (bankStep s e).disbanded = false) : BankInv (bankStep s e) := by
  cases hd : s.disbanded with
  | true =>
    rw [(bankStep_of_disbanded hd e).1,hd] at hd'
    simp at hd'
  | false =>
    have hinv := h hd
    cases e with
    | guild e =>
      have hstep : bankStep s (.guild e) = step s e := by simp [bankStep,bankStep',hd]
      rw [hstep] at hd' ⊢
      have heff := step_effect hinv.wf e
      exact ⟨heff.wf hinv.wf hd',heff.master hinv.wf hinv.master hd',
        fun k m hm => heff.counters hinv.counters hd' hm,
        fun k hk => heff.onlyMembers hinv.wf hinv.onlyMembers hd' hk⟩
    | deposit player amount =>
      rw [bankStep,bankStep_deposit hd]
      rcases deposit_cases s player amount.toNat with ⟨-,heq⟩ | ⟨c,c',ha,hguild,-,heq⟩
      · rw [heq]
        exact hinv
      · rw [heq]
        exact (sameRoll_afterDeposit ha hguild).bankInv hinv hinv.counters
    | withdraw player amount repair =>
      rw [bankStep,bankStep_withdraw hd]
      rcases withdraw_cases s player amount.toNat repair with
        ⟨-,heq⟩ | ⟨m,c,c',hp,hc,hguild,-,heq⟩
      · rw [heq]
        exact hinv
      · rw [heq]
        exact bankInv_afterWithdraw hinv hp.member hc hguild (hok m hp).2
    | reset =>
      have hstep : bankStep s .reset = { s with guild := s.guild.resetTimes } := by
        simp [bankStep,bankStep',hd]
      rw [hstep]
      refine sameRoll_resetTimes.bankInv hinv ?_
      intro k m' hm'
      simp only [Guild.resetTimes,OrderedMap.find?_map] at hm'
      obtain ⟨m,-,rfl⟩ := Option.map_eq_some_iff.mp hm'
      simp [Member.resetValues]

end Steps

section Limit

variable {s s' : State} {k player : Nat} {m : Member} {e : BankEvent}

def BankEvent.IsMoney : BankEvent → Prop
  | .deposit _ _ => True
  | .withdraw _ _ _ => True
  | _ => False

/-- The counter of the day stands within the limit of the rank. A limit beyond the range of
`int32` is negative there and allows nothing. -/
structure WithinLimit (s : State) (player : Nat) (m : Member) (limit : BitVec 32) : Prop where
  member : s.guild.getMember player = some m
  notMaster : m.rankId ≠ grGuildmaster
  perDay : s.guild.getRankBankMoneyPerDay m.rankId = limit
  le : (m.bankWithdraw moneyTab).toNat ≤ limit.toNat
  range : (m.bankWithdraw moneyTab).toNat = 0 ∨ limit.toNat < 2^31

theorem WithinLimit.frame {limit : BitVec 32} (h : WithinLimit s player m limit)
    (hranks : s'.guild.ranks = s.guild.ranks)
    (hm : s'.guild.getMember player = some m) : WithinLimit s' player m limit := by
  refine ⟨hm,h.notMaster,?_,h.le,h.range⟩
  have hinfo : s'.guild.getRankInfo m.rankId = s.guild.getRankInfo m.rankId := by
    rw [Guild.getRankInfo,Guild.getRankInfo,Guild.getRanksSize,Guild.getRanksSize,hranks]
  rw [← h.perDay,Guild.getRankBankMoneyPerDay,hinfo]
  rfl

theorem WithinLimit.withdraw {limit : BitVec 32} {a : Nat} {c : Character}
    (h : WithinLimit s player m limit) (h0 : 0 < a)
    (hrem : a ≤ (s.guild.getMemberRemainingMoney m).toNat) :
    WithinLimit (s.afterWithdraw player a c m) player (m.updateBankWithdrawValue moneyTab a) limit ∧
      ((m.updateBankWithdrawValue moneyTab a).bankWithdraw moneyTab).toNat =
        (m.bankWithdraw moneyTab).toNat+a := by
  have hlt : (m.bankWithdraw moneyTab).toNat < 2^31 := by
    have hle := h.le
    rcases h.range with hr | hr <;> omega
  obtain ⟨-,hle,hdiff⟩ := remaining_bound h.notMaster h0 hlt hrem
  rw [h.perDay] at hle hdiff
  have hrange : limit.toNat < 2^31 := by
    rcases h.range with hr | hr <;> omega
  have hsum : ((m.updateBankWithdrawValue moneyTab a).bankWithdraw moneyTab).toNat =
      (m.bankWithdraw moneyTab).toNat+a := by
    rw [updateBankWithdrawValue_moneyTab,BitVec.toNat_add,BitVec.toNat_ofNat]
    omega
  refine ⟨⟨afterWithdraw_getMember,h.notMaster,?_,by omega,.inr hrange⟩,hsum⟩
  rw [← h.perDay]
  rfl

theorem bankStep_withinLimit {limit : BitVec 32} (h : WithinLimit s player m limit)
    (he : e.IsMoney) : ∃ m', WithinLimit (bankStep s e) player m' limit ∧
      (m'.bankWithdraw moneyTab).toNat = (m.bankWithdraw moneyTab).toNat+taken player s e := by
  cases hd : s.disbanded with
  | true =>
    obtain ⟨hsame,hno⟩ := bankStep_of_disbanded hd e
    rw [hsame]
    refine ⟨m,h,?_⟩
    cases e <;> simp [taken,hno]
  | false =>
    cases e with
    | guild e => exact absurd he id
    | reset => exact absurd he id
    | deposit p amount =>
      rw [bankStep,bankStep_deposit hd]
      rcases deposit_cases s p amount.toNat with ⟨-,heq⟩ | ⟨c,c',-,-,-,heq⟩
      · rw [heq]
        exact ⟨m,h,rfl⟩
      · rw [heq]
        exact ⟨m,h.frame rfl h.member,rfl⟩
    | withdraw p amount repair =>
      have hstep := bankStep_withdraw hd p amount repair
      rcases withdraw_cases s p amount.toNat repair with
        ⟨-,heq⟩ | ⟨m',c,c',hp,-,-,-,heq⟩
      · rw [heq] at hstep
        refine ⟨m,?_,?_⟩
        · simpa [bankStep,hstep] using h
        · simp [taken,done,hstep]
      · rw [heq] at hstep
        by_cases hpl : p = player
        · subst hpl
          cases h.member.symm.trans hp.member
          have h0 : 0 < min amount.toNat maxMoneyAmount := by
            have := hp.nonzero
            simp only [maxMoneyAmount]
            omega
          obtain ⟨hlim,hsum⟩ := h.withdraw (c := c') h0 hp.remaining
          refine ⟨m.updateBankWithdrawValue moneyTab (min amount.toNat maxMoneyAmount),?_,?_⟩
          · simpa [bankStep,hstep] using hlim
          · rw [hsum]
            simp [taken,done,hstep]
        · refine ⟨m,?_,by simp [taken,hpl]⟩
          rw [bankStep,hstep]
          refine h.frame rfl ?_
          simp only [State.afterWithdraw,Guild.getMember,OrderedMap.find?_insert,
            if_neg (Ne.symm hpl)]
          exact h.member

theorem withdrawn_le {limit : BitVec 32} {es : List BankEvent} (h : WithinLimit s player m limit)
    (hes : ∀ e ∈ es, e.IsMoney) :
    withdrawn player s es+(m.bankWithdraw moneyTab).toNat ≤ limit.toNat := by
  induction es generalizing s m with
  | nil => simpa [withdrawn] using h.le
  | cons e es ih =>
    rw [List.forall_mem_cons] at hes
    obtain ⟨m',h',hsum⟩ := bankStep_withinLimit h hes.1
    have hrest := ih h' hes.2
    rw [withdrawn]
    omega

end Limit

section Run

variable {characters : Nat → Option Character} {id : NewId characters} {leader : Nat} {names : DefaultNames}
  {s : State} {es : List BankEvent}

theorem create_onlyMembers (hs : create characters id leader names = some s) (k : Nat)
    (hk : s.guildIdOf k = s.guild.id) : k ∈ s.guild.members.keys := by
  unfold create at hs
  split_ifs at hs
  obtain ⟨c,m,-,-,-,-,-,rfl⟩ := addMember_some hs
  rw [guildIdOf_setInGuild] at hk
  simp only [setInGuild_guild,OrderedMap.mem_keys_insert]
  split_ifs at hk with hkl
  · exact .inl hkl
  · exfalso
    have hid : ((characters k).map (·.guildId)).getD 0 = id.val := hk
    cases hc : characters k with
    | none =>
      rw [hc] at hid
      exact id.pos hid.symm
    | some c =>
      rw [hc] at hid
      exact id.fresh k c hc hid

theorem create_bankInv (hs : create characters id leader names = some s) : BankInv s := by
  obtain ⟨-,-,-,hranks,-,m,-,hzero,-,hfind⟩ := create_spec hs
  refine ⟨create_wf hs,?_,?_,create_onlyMembers hs⟩
  · rw [hranks]
    exact ⟨_,rfl,rfl⟩
  · intro k m' hm'
    rw [hfind] at hm'
    split_ifs at hm'
    cases hm'
    rw [hzero]
    decide

theorem run_bankInv (hs : create characters id leader names = some s)
    (hg : Run.Guarded bankStep BankOk s es) (hd : (Run.exec bankStep s es).disbanded = false) :
    BankInv (Run.exec bankStep s es) :=
  hg.inv (P := fun s => s.disbanded = false → BankInv s) (fun _ _ h hok hd => bankStep_inv h hok hd)
    (fun _ => create_bankInv hs) hd

theorem bankStep_of_refused {e : BankEvent} (hno : done s e = false) : bankStep s e = s := by
  cases hd : s.disbanded with
  | true => exact (bankStep_of_disbanded hd e).1
  | false =>
    cases e with
    | guild e => simp [done,bankStep',hd] at hno
    | reset => simp [done,bankStep',hd] at hno
    | deposit player amount =>
      rw [done,bankStep_deposit hd] at hno
      rw [bankStep,bankStep_deposit hd]
      rcases deposit_cases s player amount.toNat with ⟨-,heq⟩ | ⟨c,c',-,-,-,heq⟩
      · rw [heq]
      · simp [heq] at hno
    | withdraw player amount repair =>
      rw [done,bankStep_withdraw hd] at hno
      rw [bankStep,bankStep_withdraw hd]
      rcases withdraw_cases s player amount.toNat repair with ⟨-,heq⟩ | ⟨m,c,c',-,-,-,-,heq⟩
      · rw [heq]
      · simp [heq] at hno

theorem withdrawn_after_reset {player : Nat} {m : Member} (hd : s.disbanded = false)
    (hm : s.guild.getMember player = some m) (hrank : m.rankId ≠ grGuildmaster)
    (hes : ∀ e ∈ es, e.IsMoney) : withdrawn player (bankStep s .reset) es ≤
      (s.guild.getRankBankMoneyPerDay m.rankId).toNat := by
  have hstep : bankStep s .reset = { s with guild := s.guild.resetTimes } := by
    simp [bankStep,bankStep',hd]
  have hmember : (bankStep s .reset).guild.getMember player = some m.resetValues := by
    have hfind : s.guild.members.find? player = some m := hm
    simp [hstep,Guild.resetTimes,Guild.getMember,OrderedMap.find?_map,hfind]
  have hlim : WithinLimit (bankStep s .reset) player m.resetValues
      (s.guild.getRankBankMoneyPerDay m.rankId) := by
    refine ⟨hmember,hrank,?_,Nat.zero_le _,.inl rfl⟩
    rw [hstep]
    rfl
  exact withdrawn_le hlim hes

/-- Along a run whose steps are all within the bounds of `BankOk`, every further step of the bank
is as it should be exactly if it is within them too; what is refused changes nothing; and between
two resets nobody but the master takes more than the limit of his rank. -/
theorem bank_money_kept (hs : create characters id leader names = some s)
    (hg : Run.Guarded bankStep BankOk s es) (hd : (Run.exec bankStep s es).disbanded = false) :
    (∀ e, BankSound (Run.exec bankStep s es) e ↔ BankOk (Run.exec bankStep s es) e) ∧
    (∀ e, done (Run.exec bankStep s es) e = false →
      bankStep (Run.exec bankStep s es) e = Run.exec bankStep s es) ∧
    ∀ player m day, (Run.exec bankStep s es).guild.getMember player = some m →
      m.rankId ≠ grGuildmaster → (∀ e ∈ day, e.IsMoney) →
      withdrawn player (bankStep (Run.exec bankStep s es) .reset) day ≤
        ((Run.exec bankStep s es).guild.getRankBankMoneyPerDay m.rankId).toNat := by
  have hinv := run_bankInv hs hg hd
  refine ⟨?_,fun e hno => bankStep_of_refused hno,
    fun player m day hm hrank hday => withdrawn_after_reset hd hm hrank hday⟩
  intro e
  cases e with
  | guild e => exact Iff.rfl
  | deposit player amount => exact bankSound_deposit_iff hinv hd
  | withdraw player amount repair => exact bankSound_withdraw_iff hinv hd
  | reset => exact Iff.rfl

def earnings : BankEvent :=
  .guild (Action.updateCharacter 1 (some ⟨"Leader",80,1,true,1,1000,by decide⟩)).event

def firstDeposit : List BankEvent := [earnings,.deposit 1 500]

theorem bank_money_kept_first_deposit :
    (Run.exec bankStep founded firstDeposit).guild.bankMoney = 500 ∧
    (Run.exec bankStep founded firstDeposit).totalMoney = 1000 ∧
    ∀ e, BankSound (Run.exec bankStep founded firstDeposit) e ↔
      BankOk (Run.exec bankStep founded firstDeposit) e := by
  have hearn : BankOk founded earnings := trivial
  have hput : BankOk (bankStep founded earnings) (.deposit 1 500) := by
    intro c _
    decide +kernel
  have hrun : Run.Guarded bankStep BankOk founded firstDeposit := ⟨hearn,hput,trivial⟩
  have h := bank_money_kept create_founded hrun (by decide +kernel)
  exact ⟨by decide +kernel,by decide +kernel,h.1⟩

/-- Player 2 may have his repairs paid, up to 1000 coins a day, and not take gold. -/
def repairOnly : List BankEvent :=
  firstDeposit ++
    [.guild (Action.addMember 2).event,
      .guild (Action.setRankInfo 1 4 "Initiate" (grRightEmpty ||| grRightWithdrawRepair) 1000 []).event]

theorem gold_for_repair_right : ¬ ∀ (characters : Nat → Option Character) (id : NewId characters)
    (leader : Nat) (names : DefaultNames) (s : State) (es : List BankEvent),
    create characters id leader names = some s → (Run.exec bankStep s es).disbanded = false →
    ∀ e, BankSound (Run.exec bankStep s es) e := by
  intro h
  have hsound := h threePlayers firstId 1 defaultNames founded repairOnly create_founded
    (by decide +kernel) (.withdraw 2 100 false)
  obtain ⟨m,m',hm,-,-,-,hright⟩ := hsound.2 (by decide +kernel)
  have hrank : ((Run.exec bankStep founded repairOnly).guild.getMember 2).map (·.rankId) = some 4 := by
    decide +kernel
  rw [hm,Option.map_some,Option.some.injEq] at hrank
  rw [hrank] at hright
  exact hright (by decide +kernel)

end Run

end TrinityCore.Guilds
