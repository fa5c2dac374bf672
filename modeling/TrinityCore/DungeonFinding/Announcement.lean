import TrinityCore.DungeonFinding.Manager
import TrinityCore.DungeonFinding.Soundness

set_option autoImplicit false

namespace TrinityCore.Lfg

variable {e : Env} {d : Stores} {w : World} {m : LFGMgr}

/-- What comes in: a proposal that is open and has players. -/
abbrev NewProposal := { p : LfgProposal // p.state = .initiating ∧ p.players.keys ≠ [] }

def Proposals.addProposals (ps : Proposals) (news : List NewProposal) : Proposals :=
  news.foldl (fun ps p => ps.addProposal p.1 p.2.1) ps

def Grows (ps ps' : Proposals) : Prop := ∃ news, ps' = ps.addProposals news

theorem Grows.refl (ps : Proposals) : Grows ps ps := ⟨[],rfl⟩

theorem Grows.trans {ps ps' ps'' : Proposals} (h : Grows ps ps') (h' : Grows ps' ps'') :
    Grows ps ps'' := by
  obtain ⟨news,rfl⟩ := h
  obtain ⟨news',rfl⟩ := h'
  exact ⟨news ++ news',(List.foldl_append ..).symm⟩

/-- The ids count on from the last one and wrap; with fewer than 2^32 new proposals none of them
takes the place of another. -/
structure Adds (ps ps' : Proposals) (new : List LfgProposal) : Prop where
  created : ps'.created = ps.created ++ new
  lastId : ps'.lastId = (ps.lastId+new.length) % 2^32
  id : ∀ i p, new[i]? = some p → p.id = (ps.lastId+i+1) % 2^32
  players : ∀ p ∈ new, p.players.keys ≠ []
  stored : new.length < 2^32 → ∀ p ∈ new, ps'.store.find? p.id = some p

theorem Adds.addProposal {ps ps' : Proposals} {new : List LfgProposal} (h : Adds ps ps' new)
    (p : NewProposal) :
    Adds ps (ps'.addProposal p.1 p.2.1) (new ++ [{ p.1 with id := ps'.nextId }]) := by
  have hnext : ps'.nextId = (ps.lastId+new.length+1) % 2^32 := by
    rw [Proposals.nextId,h.lastId]
    omega
  constructor
  case created =>
    change ps'.created ++ _ = _
    rw [h.created,List.append_assoc]
  case lastId =>
    rw [List.length_append,List.length_singleton,← Nat.add_assoc]
    exact hnext
  case id =>
    intro i p' hp'
    by_cases hi : i < new.length
    · rw [List.getElem?_append_left hi] at hp'
      exact h.id i p' hp'
    · rw [List.getElem?_append_right (not_lt.mp hi)] at hp'
      obtain ⟨hlt,rfl⟩ := List.getElem?_eq_some_iff.mp hp'
      rw [List.length_singleton] at hlt
      obtain rfl : i = new.length := by omega
      simpa using hnext
  case players =>
    intro p' hp'
    rcases List.mem_append.mp hp' with hp' | hp'
    · exact h.players p' hp'
    · rw [List.mem_singleton.mp hp']
      exact p.2.2
  case stored =>
    intro hlen p' hp'
    rw [List.length_append,List.length_singleton] at hlen
    rw [find?_addProposal]
    rcases List.mem_append.mp hp' with hp' | hp'
    · obtain ⟨i,hi⟩ := List.mem_iff_getElem?.mp hp'
      have hlt : i < new.length := (List.getElem?_eq_some_iff.mp hi).1
      have hid := h.id i p' hi
      have hL := ps.lastId_lt
      rw [if_neg (by omega)]
      exact h.stored (by omega) p' hp'
    · obtain rfl := List.mem_singleton.mp hp'
      rw [if_pos rfl]

theorem Grows.adds {ps ps' : Proposals} (h : Grows ps ps') : ∃ new, Adds ps ps' new := by
  obtain ⟨news,rfl⟩ := h
  induction news using List.reverseRecOn with
  | nil =>
    refine ⟨[],⟨(List.append_nil _).symm,?_,by simp,by simp,by simp⟩⟩
    exact (Nat.mod_eq_of_lt ps.lastId_lt).symm
  | append_singleton news p ih =>
    obtain ⟨new,hnew⟩ := ih
    have heq : ps.addProposals (news ++ [p]) = (ps.addProposals news).addProposal p.1 p.2.1 :=
      List.foldl_append ..
    rw [heq]
    exact ⟨_,hnew.addProposal p⟩

section Search

theorem verdict_full_size {q : LFGQueue} {check : List Nat} {m : Match}
    (h : verdict e d q check = .full m) (hne : check ≠ []) :
    m.roles.size % 256 = maxGroupSize := by
  obtain ⟨c,rs,-,-,-,hsize,rfl⟩ := verdict_full_counted h hne
  have hkeys := congrArg List.length (keys_checkGroupRoles rs)
  rw [OrderedMap.keys,OrderedMap.keys,List.length_map,List.length_map] at hkeys
  change (checkGroupRoles rs).2.size = rs.size at hkeys
  change (checkGroupRoles rs).2.size % 256 = maxGroupSize
  rw [hkeys,hsize]

theorem verdict_full_players {q : LFGQueue} {check : List Nat} {m : Match}
    (h : verdict e d q check = .full m) (hne : check ≠ []) : m.roles.keys ≠ [] := by
  have hsize := verdict_full_size h hne
  intro hkeys
  rw [OrderedMap.size,List.map_eq_nil_iff.mp hkeys] at hsize
  exact absurd hsize (by decide)

theorem matched_grows {s : Search} {check : List Nat} {m : Match}
    (hv : verdict e d s.queue check = .full m) (hq : d.allQueued check = true) :
    Grows s.proposals (matched e check m s).proposals := by
  have hne : check ≠ [] := by
    rintro rfl
    simp [Stores.allQueued] at hq
  have hplayers : (newProposal e check m s).players.keys ≠ [] := by
    change (m.roles.map (proposalPlayer m)).keys ≠ []
    rw [OrderedMap.keys_map]
    exact verdict_full_players hv hne
  exact ⟨[⟨newProposal e check m s,rfl,hplayers⟩],rfl⟩

theorem findGroups_grows (s : Search) : Grows s.proposals (findGroups e d s).proposals :=
  findGroupsFuel_rel (R := fun s s' => Grows s.proposals s'.proposals)
    ⟨Grows.trans,fun h => by rw [h.proposals]; exact .refl _,matched_grows⟩ (fun _ => .refl _) _ s

theorem findAllGroups_frame (m : LFGMgr) :
    Grows m.proposals (findAllGroups w m).proposals ∧
    (findAllGroups w m).stores = m.stores ∧ (findAllGroups w m).sent = m.sent := by
  unfold findAllGroups
  induction List.range 256 generalizing m with
  | nil => exact ⟨.refl _,rfl,rfl⟩
  | cons i is ih =>
    obtain ⟨h1,h2,h3⟩ := ih (findGroupsIn w m i)
    exact ⟨(findGroups_grows (e := w.toEnv) (d := m.stores)
      ⟨m.queuesStore i,m.proposals,m.rolls⟩).trans h1,h2,h3⟩

end Search

section Removal

theorem foldl_proposals {α : Type} {f : LFGMgr → α → LFGMgr} (hf : ∀ m x,
    (f m x).proposals.lastId = m.proposals.lastId ∧ (f m x).proposals.created = m.proposals.created)
    (xs : List α) (m : LFGMgr) : (xs.foldl f m).proposals.lastId = m.proposals.lastId ∧
      (xs.foldl f m).proposals.created = m.proposals.created := by
  induction xs generalizing m with
  | nil => exact ⟨rfl,rfl⟩
  | cons x xs ih =>
    obtain ⟨h1,h2⟩ := ih (f m x)
    obtain ⟨h3,h4⟩ := hf m x
    exact ⟨h1.trans h3,h2.trans h4⟩

theorem removeProposal_keeps (id : Nat) (p : LfgProposal) (type : RemovalType) (m : LFGMgr) :
    (removeProposal id p type m).proposals.lastId = m.proposals.lastId ∧
    (removeProposal id p type m).proposals.created = m.proposals.created := by
  have hnotify : ∀ (removed : Finset Nat) (ps : List (Nat × LfgProposalPlayer)) (m : LFGMgr),
      (ps.foldl (notifyRemoved id removed) m).proposals.lastId = m.proposals.lastId ∧
      (ps.foldl (notifyRemoved id removed) m).proposals.created = m.proposals.created := by
    refine fun removed => foldl_proposals fun m x => ?_
    unfold notifyRemoved
    simp only
    split_ifs <;> exact ⟨rfl,rfl⟩
  have hqueue : ∀ first (f : Nat → LFGQueue → LFGQueue) (gs : List Nat) (m : LFGMgr),
      (gs.foldl (fun m g => m.onQueue first (f g)) m).proposals.lastId = m.proposals.lastId ∧
      (gs.foldl (fun m g => m.onQueue first (f g)) m).proposals.created = m.proposals.created :=
    fun first f => foldl_proposals fun _ _ => ⟨rfl,rfl⟩
  obtain ⟨h1,h2⟩ := hnotify (toRemove (finalAnswers type p.players))
    (finalAnswers type p.players).entries m
  obtain ⟨h3,h4⟩ := hqueue ((finalAnswers type p.players).keys.headD 0)
    (fun g q => q.removeFromQueue g) (OrderedSet.elems (toRemove (finalAnswers type p.players))) _
  obtain ⟨h5,h6⟩ := hqueue ((finalAnswers type p.players).keys.headD 0) (fun g q => q.addToQueue g)
    (p.queues.filter (· ∉ toRemove (finalAnswers type p.players))) _
  exact ⟨(h5.trans h3).trans h1,(h6.trans h4).trans h2⟩

theorem removals_keep (m : LFGMgr) :
    (removeBoots w (removeProposals w (removeRoleChecks w m))).proposals.lastId =
      m.proposals.lastId ∧
    (removeBoots w (removeProposals w (removeRoleChecks w m))).proposals.created =
      m.proposals.created := by
  have h1 : ∀ m, (removeRoleChecks w m).proposals.lastId = m.proposals.lastId ∧
      (removeRoleChecks w m).proposals.created = m.proposals.created := by
    refine fun m => foldl_proposals (fun m x => ?_) _ m
    split_ifs <;> exact ⟨rfl,rfl⟩
  have h2 : ∀ m, (removeProposals w m).proposals.lastId = m.proposals.lastId ∧
      (removeProposals w m).proposals.created = m.proposals.created := by
    refine fun m => foldl_proposals (fun m x => ?_) _ m
    split_ifs
    · exact removeProposal_keeps _ _ _ _
    · exact ⟨rfl,rfl⟩
  have h3 : ∀ m, (removeBoots w m).proposals.lastId = m.proposals.lastId ∧
      (removeBoots w m).proposals.created = m.proposals.created := by
    refine fun m => foldl_proposals (fun m x => ?_) _ m
    split_ifs <;> exact ⟨rfl,rfl⟩
  exact ⟨((h3 _).1.trans (h2 _).1).trans (h1 _).1,((h3 _).2.trans (h2 _).2).trans (h1 _).2⟩

end Removal

section Announce

@[simp] theorem getState_setState (d : Stores) (guid g : Nat) :
    (d.setState guid .proposal).getState g = if g = guid then .proposal else d.getState g := by
  unfold Stores.setState Stores.getState
  by_cases hg : g = guid
  · subst hg
    split_ifs <;> simp_all [LfgPlayerData.setState,LfgGroupData.setState]
  · split_ifs <;> simp_all

@[simp] theorem group_setState (d : Stores) (guid g : Nat) :
    ((d.setState guid .proposal).players g).group = (d.players g).group := by
  unfold Stores.setState
  by_cases hg : g = guid
  · subst hg
    split_ifs
    · rfl
    · simp [LfgPlayerData.setState]
  · split_ifs
    · rfl
    · simp [Function.update_of_ne hg]

def Stores.InProposal (d : Stores) (guid : Nat) : Prop :=
  d.getState guid = .proposal ∧
    ((d.players guid).group ≠ 0 → d.getState (d.players guid).group = .proposal)

/-- Announcements change nothing but states, and only to that of a proposal. -/
structure Announces (m m' : LFGMgr) : Prop where
  proposals : m'.proposals = m.proposals
  group : ∀ guid, (m'.stores.players guid).group = (m.stores.players guid).group
  state : ∀ guid, m.stores.getState guid = .proposal → m'.stores.getState guid = .proposal

theorem Announces.refl (m : LFGMgr) : Announces m m := ⟨rfl,fun _ => rfl,fun _ h => h⟩

theorem Announces.trans {m m' m'' : LFGMgr} (h : Announces m m') (h' : Announces m' m'') :
    Announces m m'' :=
  ⟨h'.proposals.trans h.proposals,fun guid => (h'.group guid).trans (h.group guid),
    fun guid hg => h'.state guid (h.state guid hg)⟩

theorem Announces.inProposal {m m' : LFGMgr} (h : Announces m m') {guid : Nat}
    (hg : m.stores.InProposal guid) : m'.stores.InProposal guid := by
  refine ⟨h.state guid hg.1,?_⟩
  rw [h.group]
  exact fun hne => h.state _ (hg.2 hne)

theorem announcePlayer_spec (id guid : Nat) (m : LFGMgr) :
    Announces m (announcePlayer id m guid) ∧
    (announcePlayer id m guid).stores.InProposal guid ∧
    (announcePlayer id m guid).sent = m.sent ++ [(guid,id)] := by
  unfold announcePlayer
  simp only [LFGMgr.setState,group_setState]
  split_ifs with hgroup
  · refine ⟨⟨rfl,fun g => by simp [LFGMgr.sendUpdateProposal],fun g hg => ?_⟩,⟨?_,?_⟩,rfl⟩
    · simp [LFGMgr.sendUpdateProposal,hg]
    · simp [LFGMgr.sendUpdateProposal]
    · simp [LFGMgr.sendUpdateProposal]
  · refine ⟨⟨rfl,fun g => by simp [LFGMgr.sendUpdateProposal],fun g hg => ?_⟩,⟨?_,?_⟩,rfl⟩
    · simp [LFGMgr.sendUpdateProposal,hg]
    · simp [LFGMgr.sendUpdateProposal]
    · simp_all [LFGMgr.sendUpdateProposal]

theorem announcePlayers_spec (id : Nat) (guids : List Nat) (m : LFGMgr) :
    Announces m (guids.foldl (announcePlayer id) m) ∧
    (∀ guid ∈ guids, (guids.foldl (announcePlayer id) m).stores.InProposal guid) ∧
    (guids.foldl (announcePlayer id) m).sent = m.sent ++ guids.map fun g => (g,id) := by
  induction guids generalizing m with
  | nil => exact ⟨.refl m,by simp,by simp⟩
  | cons guid guids ih =>
    obtain ⟨h1,h2,h3⟩ := announcePlayer_spec id guid m
    obtain ⟨h4,h5,h6⟩ := ih (announcePlayer id m guid)
    refine ⟨h1.trans h4,fun g hg => ?_,?_⟩
    · rcases List.mem_cons.mp hg with rfl | hg
      · exact h4.inProposal h2
      · exact h5 g hg
    · simp [h6,h3]

theorem announceProposals_spec (es : List (Nat × LfgProposal)) (m : LFGMgr)
    (hes : ∀ x ∈ es, x.2.state = .initiating) :
    Announces m (es.foldl (announceProposal w) m) ∧
    (∀ x ∈ es, ∀ guid ∈ x.2.players.keys,
      (es.foldl (announceProposal w) m).stores.InProposal guid) ∧
    (es.foldl (announceProposal w) m).sent =
      m.sent ++ es.flatMap fun x => x.2.players.keys.map fun g => (g,x.1) := by
  induction es generalizing m with
  | nil => exact ⟨.refl m,by simp,by simp⟩
  | cons x es ih =>
    obtain ⟨h1,h2,h3⟩ := announcePlayers_spec x.1 x.2.players.keys m
    have hstep : announceProposal w m x = x.2.players.keys.foldl (announcePlayer x.1) m := by
      simp [announceProposal,hes x (by simp)]
    simp only [List.foldl_cons,hstep]
    obtain ⟨h4,h5,h6⟩ := ih (x.2.players.keys.foldl (announcePlayer x.1) m)
      fun y hy => hes y (List.mem_cons_of_mem _ hy)
    refine ⟨h1.trans h4,fun y hy guid hg => ?_,?_⟩
    · rcases List.mem_cons.mp hy with rfl | hy
      · exact h4.inProposal (h2 guid hg)
      · exact h5 y hy guid hg
    · rw [h6,h3]
      simp

end Announce

section Update

def searched (w : World) (m : LFGMgr) : LFGMgr :=
  findAllGroups w (removeBoots w (removeProposals w (removeRoleChecks w m)))

def created (w : World) (m : LFGMgr) : List LfgProposal :=
  Proposals.newSince m.proposals (searched w m).proposals

/-- The proposal is not there any more, or all of its players were told of it after the search. -/
def Announced (w : World) (before after : LFGMgr) (p : LfgProposal) : Prop :=
  after.proposals.store.find? p.id = none ∨
    ∀ guid ∈ p.players.keys, after.stores.InProposal guid ∧
      (guid,p.id) ∈ after.sent.drop (searched w before).sent.length

theorem adds_created (w : World) (m : LFGMgr) :
    Adds m.proposals (searched w m).proposals (created w m) := by
  obtain ⟨hlast,hcreated⟩ := removals_keep (w := w) m
  obtain ⟨new,hnew⟩ := (findAllGroups_frame (w := w)
    (removeBoots w (removeProposals w (removeRoleChecks w m)))).1.adds
  have hsince : created w m = new := Proposals.newSince_of_eq (hnew.created.trans (by rw [hcreated]))
  rw [hsince]
  exact ⟨hnew.created.trans (by rw [hcreated]),hnew.lastId.trans (by rw [hlast]),
    fun i p hp => (hnew.id i p hp).trans (by rw [hlast]),hnew.players,hnew.stored⟩

/-- What is announced is what stands in the store from the last id on. -/
theorem update_announces (diff : Nat) (hw : w.enabled = true) (hk : 1 ≤ (created w m).length)
    (hk' : (created w m).length < 2^32) :
    (update w diff m).proposals = (searched w m).proposals ∧
    ∃ sent, (update w diff m).sent = (searched w m).sent ++ sent ∧
      (∀ y ∈ sent, (searched w m).proposals.lastId ≤ y.2) ∧
      ∀ p ∈ created w m, (searched w m).proposals.lastId ≤ p.id →
        ∀ guid ∈ p.players.keys, (update w diff m).stores.InProposal guid ∧ (guid,p.id) ∈ sent := by
  have hadds := adds_created w m
  let es := (searched w m).proposals.store.entries.filter fun x =>
    (searched w m).proposals.lastId ≤ x.1
  obtain ⟨h1,h2,h3⟩ := announceProposals_spec (w := w) es (searched w m) fun y hy =>
    (searched w m).proposals.pending y (List.mem_of_mem_filter hy)
  have hne : m.proposals.lastId ≠ (searched w m).proposals.lastId := by
    have hL := m.proposals.lastId_lt
    rw [hadds.lastId]
    omega
  have hlast : (searched w m).proposals.store.find? (searched w m).proposals.lastId ≠ none := by
    have hlt : (created w m).length-1 < (created w m).length := by omega
    have hget := List.getElem?_eq_getElem hlt
    have hid := hadds.id _ _ hget
    have hstored := hadds.stored hk' _ (List.getElem_mem hlt)
    have heq : ((created w m)[(created w m).length-1]).id = (searched w m).proposals.lastId := by
      have hsum : m.proposals.lastId+((created w m).length-1)+1 =
          m.proposals.lastId+(created w m).length := by omega
      rw [hsum] at hid
      exact hid.trans hadds.lastId.symm
    rw [← heq,hstored]
    exact nofun
  have hann : announce w m.proposals.lastId (searched w m) = es.foldl (announceProposal w) (searched w m) := by
    rw [announce,if_neg]
    rw [Option.isNone_iff_eq_none]
    exact not_or.mpr ⟨hne,hlast⟩
  have hupdate : update w diff m = updateTimers diff (es.foldl (announceProposal w) (searched w m)) := by
    rw [← hann,← (removals_keep (w := w) m).1]
    simp only [update,hw,Bool.not_true,Bool.false_eq_true,if_false,searched]
  have hframe : ∀ m, (updateTimers diff m).proposals = m.proposals ∧
      (updateTimers diff m).stores = m.stores ∧ (updateTimers diff m).sent = m.sent := by
    intro m
    unfold updateTimers
    split_ifs <;> exact ⟨rfl,rfl,rfl⟩
  obtain ⟨f1,f2,f3⟩ := hframe (es.foldl (announceProposal w) (searched w m))
  rw [hupdate,f1,f2,f3,h3]
  refine ⟨h1.proposals,_,rfl,fun y hy => ?_,fun p hp hid guid hg => ?_⟩
  · obtain ⟨x,hx,hy⟩ := List.mem_flatMap.mp hy
    obtain ⟨g,-,rfl⟩ := List.mem_map.mp hy
    exact of_decide_eq_true (List.mem_filter.mp hx).2
  · have hmem : (p.id,p) ∈ es := List.mem_filter.mpr
      ⟨OrderedMap.mem_entries.mpr (hadds.stored hk' p hp),decide_eq_true hid⟩
    exact ⟨h2 _ hmem guid hg,List.mem_flatMap.mpr ⟨_,hmem,List.mem_map_of_mem hg⟩⟩

theorem announced_iff (diff : Nat) (hw : w.enabled = true) (hk : 1 ≤ (created w m).length)
    (hk' : (created w m).length < 2^32) {p : LfgProposal} (hp : p ∈ created w m) :
    Announced w m (update w diff m) p ↔ (searched w m).proposals.lastId ≤ p.id := by
  obtain ⟨hps,sent,hsent,hids,hann⟩ := update_announces diff hw hk hk'
  have hadds := adds_created w m
  unfold Announced
  rw [hsent,List.drop_left,hps,hadds.stored hk' p hp]
  constructor
  · intro h
    obtain ⟨guid,hguid⟩ := List.exists_mem_of_ne_nil _ (hadds.players p hp)
    exact hids _ ((h.resolve_left nofun) guid hguid).2
  · exact fun hid => .inr (hann p hp hid)

/-- All the proposals that an update creates are announced just when there is only one, or when
the id wraps to 0 with the last of them. -/
theorem all_announced_iff (w : World) (diff : Nat) (m : LFGMgr) (hw : w.enabled = true)
    (hk : 1 ≤ (created w m).length) (hk' : (created w m).length < 2^32) :
    (∀ p ∈ created w m, Announced w m (update w diff m) p) ↔
      (created w m).length = 1 ∨ (m.proposals.lastId+(created w m).length) % 2^32 = 0 := by
  have hadds := adds_created w m
  have hL := m.proposals.lastId_lt
  have hiff : (∀ p ∈ created w m, Announced w m (update w diff m) p) ↔
      ∀ i < (created w m).length,
        (searched w m).proposals.lastId ≤ (m.proposals.lastId+i+1) % 2^32 := by
    constructor
    · intro h i hi
      have hget := List.getElem?_eq_getElem hi
      rw [← hadds.id i _ hget]
      exact (announced_iff diff hw hk hk' (List.getElem_mem hi)).mp (h _ (List.getElem_mem hi))
    · intro h p hp
      obtain ⟨i,hi⟩ := List.mem_iff_getElem?.mp hp
      rw [announced_iff diff hw hk hk' hp,hadds.id i p hi]
      exact h i (List.getElem?_eq_some_iff.mp hi).1
  rw [hiff,hadds.lastId]
  constructor
  · intro h
    by_contra hneither
    by_cases hwrap : m.proposals.lastId+(created w m).length < 2^32
    · have h0 := h 0 (by omega)
      omega
    · -- the id goes round within the call, and the one that gets id 0 is left out
      have h0 := h (2^32-1-m.proposals.lastId) (by omega)
      omega
  · rintro (hone | hzero) i hi
    · obtain rfl : i = 0 := by omega
      rw [hone]
    · rw [hzero]
      exact Nat.zero_le _

def openWorld : World where
  toEnv := peace
  enabled := true
  dungeonType := fun _ => .dungeon
  dungeonsByRandom := fun _ => ∅
  lockedDungeons := fun _ => ∅
  makeNewGroup := fun _ d => (d,[])

def realm : LFGMgr := { LFGMgr.initial with
  stores := { Stores.initial with
    players := fun guid => { LfgPlayerData.initial with team := if guid ≤ 5 then 213 else 67 } } }

def soloRequest (guid : Nat) : JoinRequest where
  player := ⟨guid,true,false,false,false⟩
  group := none
  roles := if guid % 5 = 1 then Role.tank else if guid % 5 = 2 then Role.healer else Role.damage
  dungeons := {7}

def joinAll (guids : List Nat) (m : LFGMgr) : LFGMgr :=
  guids.foldl (fun m guid => (joinLfg openWorld (soloRequest guid) m).2) m

theorem all_announced_five :
    (created openWorld (joinAll [1,2,3,4,5] realm)).length = 1 ∧
    ∀ p ∈ created openWorld (joinAll [1,2,3,4,5] realm),
      Announced openWorld (joinAll [1,2,3,4,5] realm)
        (update openWorld 0 (joinAll [1,2,3,4,5] realm)) p := by
  have hk : (created openWorld (joinAll [1,2,3,4,5] realm)).length = 1 := by decide +kernel
  exact ⟨hk,(all_announced_iff openWorld 0 _ rfl hk.ge (by omega)).mpr (.inl hk)⟩

/-- Five players of each faction are matched in one update; half of them are not told. -/
theorem one_of_two_announced :
    (created openWorld (joinAll [1,2,3,4,5,6,7,8,9,10] realm)).map (·.id) = [2,3] ∧
    ¬ ∀ p ∈ created openWorld (joinAll [1,2,3,4,5,6,7,8,9,10] realm),
      Announced openWorld (joinAll [1,2,3,4,5,6,7,8,9,10] realm)
        (update openWorld 0 (joinAll [1,2,3,4,5,6,7,8,9,10] realm)) p := by
  have hids : (created openWorld (joinAll [1,2,3,4,5,6,7,8,9,10] realm)).map (·.id) = [2,3] := by
    decide +kernel
  have hlen : (created openWorld (joinAll [1,2,3,4,5,6,7,8,9,10] realm)).length = 2 := by
    simpa using congrArg List.length hids
  have hlast : (searched openWorld (joinAll [1,2,3,4,5,6,7,8,9,10] realm)).proposals.lastId = 3 := by
    decide +kernel
  refine ⟨hids,fun h => ?_⟩
  obtain ⟨p,hp,hid⟩ := List.mem_map.mp (hids ▸ (by simp : 2 ∈ [2,3]))
  have hle := (announced_iff 0 rfl (by omega) (by omega) hp).mp (h p hp)
  omega

end Update

end TrinityCore.Lfg
