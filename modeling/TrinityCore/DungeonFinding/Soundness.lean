import TrinityCore.DungeonFinding.Search

set_option autoImplicit false

namespace TrinityCore.Lfg

variable {e : Env} {d : Stores} {s : Search} {q : LFGQueue} {check : List Nat}

structure Sound (e : Env) (d : Stores) (q : LFGQueue) (p : LfgProposal) : Prop where
  five : p.players.size = maxGroupSize
  union : ∀ x, x ∈ p.players.keys ↔ ∃ g ∈ p.queues, x ∈ (roles q g).keys
  disjoint : p.queues.Pairwise fun g g' => ∀ x ∈ (roles q g).keys, x ∉ (roles q g').keys
  offered : ∀ g ∈ p.queues, ∀ x r, (roles q g).find? x = some r →
    ∃ player, p.players.find? x = some player ∧ IsRole player.role ∧ player.role ||| r = r
  tank : (p.players.values.map (·.role)).count Role.tank = tanksNeeded
  healer : (p.players.values.map (·.role)).count Role.healer = healersNeeded
  damage : (p.players.values.map (·.role)).count Role.damage = dpsNeeded
  dungeon : ∀ g ∈ p.queues, p.dungeonId ∈ dungeons q g
  noIgnore : ∀ x ∈ p.players.keys, ∀ y ∈ p.players.keys, x ≠ y → e.hasIgnore x y = false
  lfgGroups : p.queues.countP d.isLfgGroup ≤ 1

/-- Nobody has more players than the counter can take on top of a full group. -/
def Countable (q : LFGQueue) (check : List Nat) : Prop := ∀ g ∈ check, (roles q g).size ≤ 250

theorem countPlayers_all {c c' : Count} (h : countPlayers d q check c = .ok c')
    (hp : c'.numPlayers ≤ maxGroupSize) (hg : c'.numLfgGroups ≤ 1) (hs : Countable q check) :
    (∀ g ∈ check, (q.view g).isSome) ∧
    c'.numPlayers = c.numPlayers+(check.map fun g => (roles q g).size).sum ∧
    c'.numLfgGroups = c.numLfgGroups+check.countP d.isLfgGroup := by
  induction check generalizing c with
  | nil =>
    obtain rfl : c = c' := by simpa [countPlayers] using h
    simp
  | cons guid check ih =>
    simp only [countPlayers] at h
    split_ifs at h with hc
    · cases hq : q.queueDataStore guid with
      | none => simp [hq] at h
      | some data =>
        have hr : roles q guid = data.roles := by simp [roles,hq]
        have hsize := hs guid (by simp)
        rw [hr] at hsize
        simp only [hq] at h
        obtain ⟨h1,h2,h3⟩ := ih h fun g hg => hs g (List.mem_cons_of_mem _ hg)
        have hwrap : (c.numPlayers+data.roles.size) % 256 = c.numPlayers+data.roles.size :=
          Nat.mod_eq_of_lt (by have := hc.2; unfold maxGroupSize at this; omega)
        refine ⟨?_,?_,?_⟩
        · intro g hg
          rcases List.mem_cons.mp hg with rfl | hg
          · simp [LFGQueue.view,hq]
          · exact h1 g hg
        · rw [h2]
          simp only [Count.add,hwrap,List.map_cons,List.sum_cons,hr]
          omega
        · rw [h3]
          simp only [Count.add,List.countP_cons]
          split_ifs <;> omega
    · -- the loop has stopped with too much, which the bounds exclude
      cases h
      omega

section Roles

/-- The players of a list of entries, in the order in which they are added. -/
def members (q : LFGQueue) (check : List Nat) : List (Nat × Role) :=
  check.flatMap fun g => (roles q g).entries

theorem joinRoles_eq (check : List Nat) :
    joinRoles e q check = (members q check).foldl (addPlayer e) .empty := by
  simp only [joinRoles,members,List.foldl_flatMap]

theorem size_addPlayer_le (rs : LfgRolesMap) (p : Nat × Role) :
    (addPlayer e rs p).size ≤ rs.size+1 := by
  unfold addPlayer
  split_ifs
  · omega
  · by_cases h : p.1 ∈ rs.keys
    · rw [OrderedMap.size_insert_of_mem h]
      omega
    · rw [OrderedMap.size_insert h]

theorem size_addPlayers_le (ps : List (Nat × Role)) (rs : LfgRolesMap) :
    (ps.foldl (addPlayer e) rs).size ≤ rs.size+ps.length := by
  induction ps generalizing rs with
  | nil => simp
  | cons p ps ih =>
    have h1 := ih (addPlayer e rs p)
    have h2 := size_addPlayer_le (e := e) rs p
    simp only [List.foldl_cons,List.length_cons]
    omega

theorem hasIgnore_comm (x y : Nat) : e.hasIgnore x y = e.hasIgnore y x := by
  simp only [Env.hasIgnore,Bool.and_comm (e.connected x),Bool.or_comm (e.ignores x y)]

theorem addPlayer_of_size {rs : LfgRolesMap} {p : Nat × Role}
    (h : (addPlayer e rs p).size = rs.size+1) :
    addPlayer e rs p = rs.insert p.1 p.2 ∧ p.1 ∉ rs.keys ∧
      ∀ y ∈ rs.keys, e.hasIgnore p.1 y = false := by
  unfold addPlayer at h ⊢
  split_ifs at h ⊢ with hi
  · omega
  · have hnew : p.1 ∉ rs.keys := fun hm => by
      rw [OrderedMap.size_insert_of_mem hm] at h
      omega
    refine ⟨rfl,hnew,fun y hy => ?_⟩
    by_contra hy'
    refine hi (List.any_eq_true.mpr ⟨y,hy,?_⟩)
    have hne : y ≠ p.1 := fun hyp => hnew (hyp ▸ hy)
    simpa [hne] using hy'

structure AllAdded (e : Env) (rs : LfgRolesMap) (ps : List (Nat × Role)) (out : LfgRolesMap) :
    Prop where
  find : ∀ x r, out.find? x = some r ↔ rs.find? x = some r ∨ (x,r) ∈ ps
  nodup : (ps.map Prod.fst).Nodup
  fresh : ∀ p ∈ ps, p.1 ∉ rs.keys
  others : ∀ p ∈ ps, ∀ y ∈ rs.keys, e.hasIgnore p.1 y = false
  noIgnore : ∀ p ∈ ps, ∀ p' ∈ ps, p.1 ≠ p'.1 → e.hasIgnore p.1 p'.1 = false

theorem addPlayers_of_size {ps : List (Nat × Role)} {rs : LfgRolesMap}
    (h : (ps.foldl (addPlayer e) rs).size = rs.size+ps.length) :
    AllAdded e rs ps (ps.foldl (addPlayer e) rs) := by
  induction ps generalizing rs with
  | nil => exact ⟨by simp,by simp,by simp,by simp,by simp⟩
  | cons p ps ih =>
    have hle := size_addPlayers_le (e := e) ps (addPlayer e rs p)
    have hle' := size_addPlayer_le (e := e) rs p
    simp only [List.foldl_cons,List.length_cons] at h
    have hone : (addPlayer e rs p).size = rs.size+1 := by omega
    have hrest : (ps.foldl (addPlayer e) (addPlayer e rs p)).size =
      (addPlayer e rs p).size+ps.length := by omega
    obtain ⟨heq,hnew,hi⟩ := addPlayer_of_size hone
    obtain ⟨h1,h2,h3,h4,h5⟩ := ih hrest
    rw [heq] at h1 h3 h4
    simp only [OrderedMap.mem_keys_insert,not_or] at h3 h4
    have hp : rs.find? p.1 = none := by
      by_contra hne
      obtain ⟨r,hr⟩ := Option.ne_none_iff_exists'.mp hne
      exact hnew (OrderedMap.mem_keys.mpr ⟨r,hr⟩)
    have hpp : ∀ p' ∈ ps, p'.1 ≠ p.1 := fun p' hp' => (h3 p' hp').1
    simp only [List.foldl_cons]
    rw [heq]
    refine ⟨fun x r => ?_,?_,?_,?_,?_⟩
    · rw [h1,OrderedMap.find?_insert]
      by_cases hx : x = p.1
      · subst hx
        simp [hp,Prod.ext_iff,eq_comm]
      · simp [hx,Prod.ext_iff]
    · rw [List.map_cons,List.nodup_cons]
      refine ⟨fun hm => ?_,h2⟩
      obtain ⟨p',hp',heq'⟩ := List.mem_map.mp hm
      exact hpp p' hp' heq'
    · intro p' hp'
      rcases List.mem_cons.mp hp' with rfl | hp'
      · exact hnew
      · exact (h3 p' hp').2
    · intro p' hp'
      rcases List.mem_cons.mp hp' with rfl | hp'
      · exact hi
      · exact fun y hy => h4 p' hp' y (.inr hy)
    · intro a ha b hb hne
      rcases List.mem_cons.mp ha with ha | ha
      · rcases List.mem_cons.mp hb with hb | hb
        · exact absurd (by rw [ha,hb]) hne
        · rw [ha,hasIgnore_comm]
          exact h4 b hb _ (.inl rfl)
      · rcases List.mem_cons.mp hb with hb | hb
        · rw [hb]
          exact h4 a ha _ (.inl rfl)
        · exact h5 a ha b hb hne

end Roles

section Full

theorem mem_joinDungeons {x g : Nat} (hg : g ∈ check) (hx : x ∈ joinDungeons q check) :
    x ∈ dungeons q g := by
  have hfold : ∀ (gs : List Nat) (ds : Finset Nat),
      x ∈ gs.foldl (fun ds g => ds ∩ dungeons q g) ds → x ∈ ds ∧ ∀ g ∈ gs, x ∈ dungeons q g := by
    intro gs
    induction gs with
    | nil => exact fun ds h => ⟨h,by simp⟩
    | cons g gs ih =>
      intro ds h
      obtain ⟨h1,h2⟩ := ih _ h
      obtain ⟨h3,h4⟩ := Finset.mem_inter.mp h1
      exact ⟨h3,by simpa [h4] using h2⟩
  cases check with
  | nil => simp at hg
  | cons guid check =>
    obtain ⟨h1,h2⟩ := hfold check _ hx
    rcases List.mem_cons.mp hg with rfl | hg
    · exact h1
    · exact h2 g hg

theorem length_members (check : List Nat) :
    (members q check).length = (check.map fun g => (roles q g).size).sum := by
  simp only [members,List.length_flatMap]
  rfl

theorem checkGroupRoles_of_true {rs : LfgRolesMap} (h : (checkGroupRoles rs).1 = true) :
    (checkGroupRoles rs).2.keys = rs.keys ∧
    Assigned (checkGroupRoles rs).2.values ∧
    ∀ x r, rs.find? x = some r → ∃ r', (checkGroupRoles rs).2.find? x = some r' ∧ r' ||| r = r := by
  have hv : (checkRoles rs.values).1 = true := h
  obtain ⟨⟨hlen,hoff⟩,hass⟩ := checkRoles_of_true hv
  have hsize : (checkRoles rs.values).2.length = rs.size := by
    rw [hlen]
    simp [OrderedMap.values,OrderedMap.size]
  refine ⟨OrderedMap.keys_setValues hsize,?_,fun x r hx => ?_⟩
  · rw [checkGroupRoles,OrderedMap.values_setValues hsize]
    exact hass
  · obtain ⟨i,hi,r',hr',hfind⟩ := OrderedMap.find?_setValues hsize hx
    have hi' := hoff i
    rw [List.getD_eq_getElem?_getD,List.getD_eq_getElem?_getD,hr',hi] at hi'
    exact ⟨r',hfind,hi'⟩

theorem verdict_full {m : Match} (h : verdict e d q check = .full m) (hl : 2 ≤ check.length) :
    ∃ c, countPlayers d q check ⟨0,0,fun _ => 0,0⟩ = .ok c ∧ c.numLfgGroups ≤ 1 ∧
      c.numPlayers = maxGroupSize ∧
      ((c.numPlayers : Int)-(joinRoles e q check).size) % 256 = 0 ∧
      (checkGroupRoles (joinRoles e q check)).1 = true ∧ joinDungeons q check ≠ ∅ ∧
      m = c.fullMatch d check (checkGroupRoles (joinRoles e q check)).2 (joinDungeons q check) := by
  unfold verdict at h
  cases hc : countPlayers d q check ⟨0,0,fun _ => 0,0⟩ with
  | error g => simp [hc] at h
  | ok c =>
    simp only [hc,verdictSeveral] at h
    split_ifs at h with h1 h2 h3 h4 h5 h6 h7 h8
    · simp only [Verdict.full.injEq] at h
      simp only [Bool.not_eq_true] at h6
      exact ⟨c,rfl,by omega,by simpa using h8,by simpa using h5,by simpa using h6,h7,h.symm⟩
    · omega

theorem verdict_full_counted {m : Match} (h : verdict e d q check = .full m) (hne : check ≠ []) :
    ∃ c rs, countPlayers d q check ⟨0,0,fun _ => 0,0⟩ = .ok c ∧ c.numPlayers = maxGroupSize ∧
      c.numLfgGroups ≤ 1 ∧ rs.size % 256 = maxGroupSize ∧
      m = c.fullMatch d check (checkGroupRoles rs).2 (joinDungeons q check) := by
  match check with
  | [] => exact absurd rfl hne
  | [guid] =>
    unfold verdict at h
    cases hc : countPlayers d q [guid] ⟨0,0,fun _ => 0,0⟩ with
    | error g => simp [hc] at h
    | ok c =>
      simp only [hc,List.length_singleton,true_and] at h
      split_ifs at h with h1 h2 h3
      all_goals first | omega | skip
      cases hq : q.queueDataStore guid with
      | none => simp [countPlayers,hq,maxGroupSize] at hc
      | some data =>
        have hr : roles q guid = data.roles := by simp [roles,hq]
        refine ⟨c,data.roles,rfl,not_not.mp h1,by omega,?_,?_⟩
        · simp only [countPlayers,hq,Nat.zero_lt_two,Nat.zero_le,and_self,if_true,
            Except.ok.injEq] at hc
          rw [← not_not.mp h1,← hc]
          simp [Count.add]
        · rw [← hr]
          exact (Verdict.full.inj h).symm
  | guid :: guid' :: check =>
    obtain ⟨c,hc,hgroups,hn,hsize,-,-,rfl⟩ := verdict_full h (by simp)
    refine ⟨c,_,hc,hn,hgroups,?_,rfl⟩
    rw [hn] at hsize
    unfold maxGroupSize at hsize ⊢
    omega

theorem mem_members {x : Nat} {r : Role} :
    (x,r) ∈ members q check ↔ ∃ g ∈ check, (roles q g).find? x = some r := by
  simp only [members,List.mem_flatMap,OrderedMap.mem_entries]

theorem disjoint_of_nodup (h : ((members q check).map Prod.fst).Nodup) :
    check.Pairwise fun g g' => ∀ x ∈ (roles q g).keys, x ∉ (roles q g').keys := by
  induction check with
  | nil => exact .nil
  | cons g check ih =>
    simp only [members,List.flatMap_cons,List.map_append] at h
    rw [List.nodup_append] at h
    refine .cons (fun g' hg' x hx hx' => ?_) (ih h.2.1)
    refine h.2.2 x hx x ?_ rfl
    obtain ⟨r,hr⟩ := OrderedMap.mem_keys.mp hx'
    exact List.mem_map.mpr ⟨(x,r),mem_members.mpr ⟨g',hg',hr⟩,rfl⟩

theorem full_added {m : Match} (h : verdict e d q check = .full m) (hl : 2 ≤ check.length)
    (hs : Countable q check) :
    AllAdded e .empty (members q check) (joinRoles e q check) ∧
      (joinRoles e q check).size = maxGroupSize := by
  obtain ⟨c,hc,hg,hn,hsize,-⟩ := verdict_full h hl
  obtain ⟨-,hcount,-⟩ := countPlayers_all hc hn.le hg hs
  have hle := size_addPlayers_le (e := e) (members q check) .empty
  have h0 : (OrderedMap.empty : LfgRolesMap).size = 0 := rfl
  rw [joinRoles_eq] at hsize ⊢
  rw [h0,length_members] at hle
  simp only [Nat.zero_add] at hcount
  unfold maxGroupSize at hn ⊢
  have hfive : ((members q check).foldl (addPlayer e) .empty).size = 5 := by omega
  refine ⟨addPlayers_of_size ?_,hfive⟩
  rw [hfive,h0,length_members]
  omega

theorem mem_keys_joinRoles (h : AllAdded e .empty (members q check) (joinRoles e q check)) (x : Nat) :
    x ∈ (joinRoles e q check).keys ↔ ∃ g ∈ check, x ∈ (roles q g).keys := by
  simp only [OrderedMap.mem_keys,h.find,OrderedMap.find?_empty,reduceCtorEq,false_or,mem_members]
  constructor
  · rintro ⟨r,g,hg,hr⟩
    exact ⟨g,hg,r,hr⟩
  · rintro ⟨g,hg,r,hr⟩
    exact ⟨r,g,hg,hr⟩

theorem full_sound {m : Match} (h : verdict e d q check = .full m) (hl : 2 ≤ check.length)
    (hs : Countable q check) (s : Search) : Sound e d q (newProposal e check m s) := by
  obtain ⟨hadd,hfive⟩ := full_added h hl hs
  obtain ⟨c,hc,hg,hn,-,hok,hds,rfl⟩ := verdict_full h hl
  obtain ⟨-,-,hgroups⟩ := countPlayers_all hc hn.le hg hs
  obtain ⟨hkeys,hass,hoff⟩ := checkGroupRoles_of_true hok
  set rs := (checkGroupRoles (joinRoles e q check)).2
  set m := c.fullMatch d check rs (joinDungeons q check)
  have hplayers : (newProposal e check m s).players = rs.map (proposalPlayer m) := rfl
  have hpkeys : (newProposal e check m s).players.keys = (joinRoles e q check).keys := by
    rw [hplayers,OrderedMap.keys_map,hkeys]
  have hsize : rs.size = 5 := by
    have : rs.keys.length = (joinRoles e q check).keys.length := by rw [hkeys]
    simp only [OrderedMap.keys,List.length_map] at this
    exact this.trans hfive
  obtain ⟨htank,hhealer,hdamage,hrole⟩ := hass.exact (by
    rw [OrderedMap.values,List.length_map]
    exact hsize)
  have hvalues : (rs.map (proposalPlayer m)).values.map (·.role) = rs.values := by
    simp [OrderedMap.values,OrderedMap.map,proposalPlayer,Function.comp_def]
  rw [← hplayers] at hvalues
  constructor
  case five =>
    rw [hplayers,OrderedMap.map,OrderedMap.size,List.length_map]
    exact hsize
  case union =>
    intro x
    rw [hpkeys]
    exact mem_keys_joinRoles hadd x
  case disjoint => exact disjoint_of_nodup hadd.nodup
  case offered =>
    intro g hg x r hx
    obtain ⟨r',hr',hor⟩ := hoff x r ((hadd.find x r).mpr (.inr (mem_members.mpr ⟨g,hg,hx⟩)))
    refine ⟨proposalPlayer m x r',?_,hrole r' ?_,hor⟩
    · rw [hplayers,OrderedMap.find?_map,hr']
      rfl
    · exact List.mem_map.mpr ⟨(x,r'),OrderedMap.mem_entries.mpr hr',rfl⟩
  case tank => rw [hvalues,htank]
  case healer => rw [hvalues,hhealer]
  case damage => rw [hvalues,hdamage]
  case dungeon =>
    intro g hg
    refine mem_joinDungeons hg ?_
    have hlen : 0 < (OrderedSet.elems (joinDungeons q check)).length := by
      rw [OrderedSet.length_elems]
      exact Finset.card_pos.mpr (Finset.nonempty_iff_ne_empty.mpr hds)
    have hlt := Nat.mod_lt (s.rolls.headD 0) hlen
    have hmem : (newProposal e check m s).dungeonId ∈ OrderedSet.elems (joinDungeons q check) := by
      change (OrderedSet.elems (joinDungeons q check)).getD
        (s.rolls.headD 0 % (OrderedSet.elems (joinDungeons q check)).length) 0 ∈ _
      rw [List.getD_eq_getElem _ _ hlt]
      exact List.getElem_mem hlt
    exact OrderedSet.mem_elems.mp hmem
  case noIgnore =>
    intro x hx y hy hne
    rw [hpkeys] at hx hy
    obtain ⟨r,hr⟩ := OrderedMap.mem_keys.mp hx
    obtain ⟨r',hr'⟩ := OrderedMap.mem_keys.mp hy
    have hmx := ((hadd.find x r).mp hr).resolve_left (by simp)
    have hmy := ((hadd.find y r').mp hr').resolve_left (by simp)
    exact hadd.noIgnore (x,r) hmx (y,r') hmy hne
  case lfgGroups =>
    change check.countP d.isLfgGroup ≤ 1
    omega

end Full

theorem Sound.congr {p : LfgProposal} {q' : LFGQueue} (h : ∀ guid, q'.view guid = q.view guid)
    (hp : Sound e d q' p) : Sound e d q p := by
  have hr : roles q' = roles q := funext (roles_congr h)
  have hd : dungeons q' = dungeons q := funext (dungeons_congr h)
  obtain ⟨h1,h2,h3,h4,h5,h6,h7,h8,h9,h10⟩ := hp
  rw [hr] at h2 h3 h4
  rw [hd] at h8
  exact ⟨h1,h2,h3,h4,h5,h6,h7,h8,h9,h10⟩

def SoundSince (e : Env) (d : Stores) (check : List Nat) (s s' : Search) : Prop :=
  Keeps s s' ∧ (Countable s.queue check → ∀ p ∈ Proposals.newSince s.proposals s'.proposals,
    2 ≤ p.queues.length → Sound e d s.queue p)

theorem SoundSince.trans {s' s'' : Search} (h : SoundSince e d check s s')
    (h' : SoundSince e d check s' s'') : SoundSince e d check s s'' := by
  refine ⟨h.1.trans h'.1,fun hs p hp hl => ?_⟩
  rw [h.1.newSince_trans h'.1] at hp
  rcases List.mem_append.mp hp with hp | hp
  · exact h.2 hs p hp hl
  · have hs' : Countable s'.queue check := fun g hg => by
      rw [roles_congr h.1.view]
      exact hs g hg
    exact (h'.2 hs' p hp hl).congr h.1.view

/-- Each proposal that a check creates for at least two groups is sound. -/
theorem checkCompatibility_sound (e : Env) (d : Stores) (check : List Nat) (s : Search)
    (hs : Countable s.queue check) :
    ∀ p ∈ Proposals.newSince s.proposals (checkCompatibility e d check s).2.proposals,
      2 ≤ p.queues.length → Sound e d s.queue p := by
  refine (checkCompatibility_rel (SoundSince e d check) SoundSince.trans ?_ check s ?_).2 hs
  · intro s s' hq
    refine ⟨hq.keeps,fun _ p hp => ?_⟩
    rw [hq.newSince] at hp
    exact absurd hp List.not_mem_nil
  · intro s t m ht hv _
    refine ⟨matched_keeps t m s,fun hs p hp hl => ?_⟩
    rw [matched_newSince,List.mem_singleton] at hp
    subst hp
    have hsound := full_sound hv hl (fun g hg => hs g (ht.subset hg)) s
    exact ⟨hsound.five,hsound.union,hsound.disjoint,hsound.offered,hsound.tank,hsound.healer,
      hsound.damage,hsound.dungeon,hsound.noIgnore,hsound.lfgGroups⟩

def soloData (guid : Nat) (role : Role) (ds : Finset Nat) : LfgQueueData :=
  .joined 0 ds (OrderedMap.empty.insert guid role)

/-- A tank, a healer and any number of damage dealers, who wait for the same dungeons. -/
def soloQueue : LFGQueue := { LFGQueue.empty with
  queueDataStore := fun guid => some (soloData guid
    (if guid = 1 then Role.tank else if guid = 2 then Role.healer else Role.damage) {7,8}) }

def queuedStores : Stores := { Stores.initial with
  players := fun _ => { LfgPlayerData.initial with state := .queued } }

def peace : Env := ⟨0,fun _ => true,fun _ _ => false⟩

theorem checkCompatibility_sound_solos :
    Countable soloQueue [5,1,2,3,4] ∧ ∃ p ∈ Proposals.newSince .empty
      (checkCompatibility peace queuedStores [5,1,2,3,4] ⟨soloQueue,.empty,[3]⟩).2.proposals,
        Sound peace queuedStores soloQueue p := by
  have hs : Countable soloQueue [5,1,2,3,4] := by
    unfold Countable
    decide
  have hq : (Proposals.newSince .empty (checkCompatibility peace queuedStores [5,1,2,3,4]
      ⟨soloQueue,.empty,[3]⟩).2.proposals).map (·.queues) = [[5,1,2,3,4]] := by
    decide +kernel
  obtain ⟨p,hp,hqueues⟩ := List.mem_map.mp (hq ▸ List.mem_singleton_self [5,1,2,3,4])
  exact ⟨hs,p,hp,checkCompatibility_sound _ _ _ ⟨soloQueue,.empty,[3]⟩ hs p hp (by simp [hqueues])⟩

/-- A full party and a group of 256 players, all of whom one of the party ignores. -/
def crowdedQueue : LFGQueue := { LFGQueue.empty with
  queueDataStore := fun guid =>
    if guid = 1 then some (.joined 0 {7} ⟨[(11,2),(12,4),(13,8),(14,8),(15,8)],by decide⟩)
    else some (.joined 0 {7} ⟨(List.range 256).map fun i => (i+100,Role.damage),
      List.pairwise_map.mpr (List.pairwise_lt_range.imp fun h => by simpa using h)⟩) }

/-- The count of 261 players wraps to 5 and the players who are left out do not show: the
proposal is for both groups but has the players of the party alone. -/
theorem crowd_left_out :
    ¬ ∀ p ∈ Proposals.newSince .empty
        (checkCompatibility ⟨0,fun _ => true,fun x y => x == 11 && y ≥ 100⟩ queuedStores [1,2]
          ⟨crowdedQueue,.empty,[]⟩).2.proposals,
      2 ≤ p.queues.length →
      Sound ⟨0,fun _ => true,fun x y => x == 11 && y ≥ 100⟩ queuedStores crowdedQueue p := by
  intro h
  have hq : (Proposals.newSince .empty
      (checkCompatibility ⟨0,fun _ => true,fun x y => x == 11 && y ≥ 100⟩ queuedStores [1,2]
        ⟨crowdedQueue,.empty,[]⟩).2.proposals).map (fun p => (p.queues,p.players.keys)) =
      [([1,2],[11,12,13,14,15])] := by
    decide +kernel
  obtain ⟨p,hp,heq⟩ := List.mem_map.mp (hq ▸ List.mem_singleton_self ([1,2],[11,12,13,14,15]))
  obtain ⟨hqueues,hkeys⟩ := Prod.mk.inj heq
  have hunion := ((h p hp (by simp [hqueues])).union 100).mpr
    ⟨2,by simp [hqueues],by decide +kernel⟩
  rw [hkeys] at hunion
  exact absurd hunion (by decide)

end TrinityCore.Lfg
