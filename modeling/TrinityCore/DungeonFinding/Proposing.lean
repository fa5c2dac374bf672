import TrinityCore.DungeonFinding.Announcement
import TrinityCore.DungeonFinding.Completeness
import TrinityCore.Lib.Tally

set_option autoImplicit false

/-!
What a proposal depends on. Whether the group is new is asked of the entry at the front of the
list, which need not be the group of the dungeon finder that is in it. The leader is chosen by the
roles that `CheckGroupRoles` has left, from which the wish to lead has been removed.
-/

namespace TrinityCore.Lfg

variable {e : Env} {d : Stores} {s s' : Search} {q : LFGQueue} {check check' : List Nat} {m m' : Match}

section Creation

/-- The state after the check of all but the first, if there is one. -/
def afterChild (e : Env) (d : Stores) : List Nat → Search → Search
  | [], s => s
  | _ :: check, s => if check.length ≥ 2 then (checkCompatibility e d check s).2 else s

theorem view_afterChild (check : List Nat) (s : Search) (guid : Nat) :
    (afterChild e d check s).queue.view guid = s.queue.view guid := by
  cases check with
  | nil => rfl
  | cons front check =>
    simp only [afterChild]
    split_ifs
    · exact (checkCompatibility_keeps check s).view guid
    · rfl

structure Creates (e : Env) (d : Stores) (check : List Nat) (s : Search) (m : Match) : Prop where
  full : verdict e d s.queue check = .full m
  queued : d.allQueued check = true
  made : checkCompatibility e d check s = (.match,matched e check m (afterChild e d check s))

theorem creates_of_match (h : (checkCompatibility e d check s).1 = .match) :
    ∃ m, Creates e d check s m := by
  have hrecord : checkCompatibility e d check s = record e d check (afterChild e d check s) →
      ∃ m, Creates e d check s m := by
    intro heq
    rcases record_cases (e := e) (d := d) check (afterChild e d check s) with
      ⟨m,hfull,hqueued,hrec⟩ | ⟨-,hne,-⟩
    · rw [verdict_congr (view_afterChild check s)] at hfull
      exact ⟨m,hfull,hqueued,heq.trans hrec⟩
    · rw [heq] at h
      exact absurd h hne
  cases check with
  | nil => cases h
  | cons front check =>
    by_cases hlong : (front :: check).length > maxGroupSize
    · simp only [checkCompatibility,if_pos hlong] at h
      cases h
    by_cases hseveral : check.length ≥ 2
    · by_cases hchild : (checkCompatibility e d check s).1.compatible
      · refine hrecord ?_
        simp only [afterChild,checkCompatibility,if_neg hlong,if_pos hseveral,hchild,Bool.not_true,
          Bool.false_eq_true,if_false]
      · have hfst : (checkCompatibility e d (front :: check) s).1 =
            (checkCompatibility e d check s).1 := by
          simp only [checkCompatibility,if_neg hlong,if_pos hseveral,hchild,Bool.not_false,if_true]
        rw [← hfst,h] at hchild
        exact absurd rfl hchild
    · exact hrecord (by simp only [afterChild,checkCompatibility,if_neg hlong,if_neg hseveral])

theorem Creates.ne_nil (h : Creates e d check s m) : check ≠ [] := by
  rintro rfl
  exact absurd h.queued (by simp [Stores.allQueued])

end Creation

section Order

theorem countPlayers_group {c c' : Count} (h : countPlayers d q check c = .ok c')
    (hp : c'.numPlayers ≤ maxGroupSize) (hg : c'.numLfgGroups ≤ 1) :
    c'.numLfgGroups = c.numLfgGroups+check.countP d.isLfgGroup ∧
    c'.group = if c.numLfgGroups = 0 then (check.find? d.isLfgGroup).getD c.group else c.group := by
  induction check generalizing c with
  | nil =>
    obtain rfl : c = c' := Except.ok.inj h
    simp
  | cons guid check ih =>
    simp only [countPlayers] at h
    split_ifs at h with hc
    · cases hq : q.queueDataStore guid with
      | none => simp [hq] at h
      | some data =>
        simp only [hq] at h
        obtain ⟨hnum,hgroup⟩ := ih h
        by_cases hlfg : d.isLfgGroup guid = true
        · simp only [Count.add,hlfg,if_true,Bool.true_and,beq_iff_eq] at hnum hgroup
          rw [List.countP_cons_of_pos hlfg,List.find?_cons_of_pos hlfg,Option.getD_some]
          exact ⟨by omega,by simpa using hgroup⟩
        · simp only [Count.add,hlfg,Bool.false_and,Bool.false_eq_true,if_false] at hnum hgroup
          rw [List.countP_cons_of_neg hlfg,List.find?_cons_of_neg hlfg]
          exact ⟨hnum,hgroup⟩
    · cases h
      omega

theorem mem_joinDungeons_iff {x : Nat} (hne : check ≠ []) :
    x ∈ joinDungeons q check ↔ ∀ g ∈ check, x ∈ dungeons q g := by
  refine ⟨fun hx g hg => mem_joinDungeons hg hx,fun hall => ?_⟩
  have hfold : ∀ (gs : List Nat) (ds : Finset Nat), x ∈ ds → (∀ g ∈ gs, x ∈ dungeons q g) →
      x ∈ gs.foldl (fun ds g => ds ∩ dungeons q g) ds := by
    intro gs
    induction gs with
    | nil => exact fun ds hx _ => hx
    | cons g gs ih =>
      intro ds hx hgs
      exact ih _ (Finset.mem_inter.mpr ⟨hx,hgs g List.mem_cons_self⟩)
        fun g' hg' => hgs g' (List.mem_cons_of_mem g hg')
  cases check with
  | nil => exact absurd rfl hne
  | cons guid check =>
    exact hfold check _ (hall guid List.mem_cons_self) fun g hg => hall g (List.mem_cons_of_mem _ hg)

structure SameProposal (m m' : Match) : Prop where
  players : ∀ x, x ∈ m.roles.keys ↔ x ∈ m'.roles.keys
  dungeons : m.dungeons = m'.dungeons
  group : m.group = m'.group
  isNew : m.isNew = m'.isNew

/-- A match is not new exactly when it has a group of the dungeon finder that is in its dungeon. -/
def NewOk (d : Stores) (check : List Nat) (m : Match) : Prop :=
  m.isNew = false ↔ ∃ g ∈ check, d.isLfgGroup g = true ∧ d.getOldState g = .dungeon

/-- The first entry was in a dungeon before if and only if the LFG group was. -/
def FrontTells (d : Stores) (check : List Nat) : Prop :=
  ∀ g ∈ check, d.isLfgGroup g = true →
    (d.getOldState (check.headD 0) = .dungeon ↔ d.getOldState g = .dungeon)

theorem newOk_iff (h : verdict e d q check = .full m) (hne : check ≠ []) :
    NewOk d check m ↔ FrontTells d check := by
  obtain ⟨c,rs,hc,hplayers,hgroups,-,rfl⟩ := verdict_full_counted h hne
  have hnum := (countPlayers_group hc hplayers.le hgroups).1
  rw [Nat.zero_add] at hnum
  have hnew : (c.fullMatch d check (checkGroupRoles rs).2 (joinDungeons q check)).isNew = false ↔
      check.countP d.isLfgGroup = 1 ∧ d.getOldState (check.headD 0) = .dungeon := by
    simp [Count.fullMatch,hnum]
  unfold NewOk FrontTells
  rw [hnew]
  by_cases hone : check.countP d.isLfgGroup = 1
  · obtain ⟨g,hg,hlfg⟩ := List.countP_pos_iff.mp (by omega : 0 < check.countP d.isLfgGroup)
    have honly : ∀ g' ∈ check, d.isLfgGroup g' = true → g' = g := by
      intro g' hg' hlfg'
      obtain ⟨g₀,hfilter⟩ := List.length_eq_one_iff.mp
        ((List.countP_eq_length_filter ..).symm.trans hone)
      have h₁ : g' ∈ check.filter d.isLfgGroup := List.mem_filter.mpr ⟨hg',hlfg'⟩
      have h₂ : g ∈ check.filter d.isLfgGroup := List.mem_filter.mpr ⟨hg,hlfg⟩
      rw [hfilter,List.mem_singleton] at h₁ h₂
      rw [h₁,h₂]
    simp only [hone,true_and]
    constructor
    · intro hiff g' hg' hlfg'
      obtain rfl := honly g' hg' hlfg'
      refine hiff.trans ⟨?_,fun hold => ⟨g',hg,hlfg,hold⟩⟩
      rintro ⟨g',hg',hlfg',hold⟩
      rwa [← honly g' hg' hlfg']
    · intro htells
      refine (htells g hg hlfg).trans ⟨fun hold => ⟨g,hg,hlfg,hold⟩,?_⟩
      rintro ⟨g',hg',hlfg',hold⟩
      rwa [← honly g' hg' hlfg']
  · have hnone : ∀ g ∈ check, ¬ d.isLfgGroup g = true :=
      List.countP_eq_zero.mp (by omega)
    refine iff_of_true ⟨fun h => absurd h.1 hone,?_⟩ fun g hg hlfg => absurd hlfg (hnone g hg)
    rintro ⟨g,hg,hlfg,-⟩
    exact absurd hlfg (hnone g hg)

/-- Two orders of the same entries make the same proposal, and say rightly whether it is new, if and
only if in both of them the first entry tells what the LFG group was. -/
theorem proposal_order_iff (hperm : check.Perm check') (hcount : Countable s.queue check)
    (h : Creates e d check s m) (h' : Creates e d check' s m') :
    (SameProposal m m' ∧ NewOk d check m ∧ NewOk d check' m') ↔
      FrontTells d check ∧ FrontTells d check' := by
  have hnew := newOk_iff h.full h.ne_nil
  have hnew' := newOk_iff h'.full h'.ne_nil
  refine ⟨fun hall => ⟨hnew.mp hall.2.1,hnew'.mp hall.2.2⟩,fun htells => ?_⟩
  have hok := hnew.mpr htells.1
  have hok' := hnew'.mpr htells.2
  refine ⟨?_,hok,hok'⟩
  have hisNew : m.isNew = m'.isNew := by
    have hiff : m.isNew = false ↔ m'.isNew = false := by
      refine hok.trans (Iff.trans ?_ hok'.symm)
      simp only [hperm.mem_iff]
    cases hm : m.isNew <;> cases hm' : m'.isNew <;> simp_all
  by_cases hlength : 2 ≤ check.length
  · have hcount' : Countable s.queue check' := fun g hg => hcount g (hperm.mem_iff.mpr hg)
    have hadded := (full_added h.full hlength hcount).1
    have hadded' := (full_added h'.full (hperm.length_eq ▸ hlength) hcount').1
    obtain ⟨c,hc,hgroups,hplayers,-,-,-,rfl⟩ := verdict_full h.full hlength
    obtain ⟨c',hc',hgroups',hplayers',-,-,-,rfl⟩ := verdict_full h'.full (hperm.length_eq ▸ hlength)
    obtain ⟨hnum,hgroup⟩ := countPlayers_group hc hplayers.le hgroups
    obtain ⟨-,hgroup'⟩ := countPlayers_group hc' hplayers'.le hgroups'
    rw [if_pos rfl] at hgroup hgroup'
    rw [Nat.zero_add] at hnum
    refine ⟨fun x => ?_,?_,?_,hisNew⟩
    · change x ∈ (checkGroupRoles _).2.keys ↔ x ∈ (checkGroupRoles _).2.keys
      rw [keys_checkGroupRoles,keys_checkGroupRoles,mem_keys_joinRoles hadded,
        mem_keys_joinRoles hadded']
      simp only [hperm.mem_iff]
    · refine Finset.ext fun x => ?_
      change x ∈ joinDungeons s.queue check ↔ x ∈ joinDungeons s.queue check'
      rw [mem_joinDungeons_iff h.ne_nil,mem_joinDungeons_iff h'.ne_nil]
      simp only [hperm.mem_iff]
    · change c.group = c'.group
      rw [hgroup,hgroup',Tally.find?_perm hperm (hnum ▸ hgroups)]
  · -- a single entry has one order
    have hsame : check = check' := by
      obtain ⟨guid,rfl⟩ := List.length_eq_one_iff.mp
        (le_antisymm (by omega) (List.length_pos_of_ne_nil h.ne_nil))
      exact hperm.singleton_eq.symm ▸ rfl
    subst hsame
    obtain rfl : m = m' := Verdict.full.inj (h.full.symm.trans h'.full)
    exact ⟨fun _ => Iff.rfl,rfl,rfl,rfl⟩

def Verdict.match? : Verdict → Option Match
  | .full m => some m
  | _ => none

def partyGuid : Nat := 0x1F50*2^48+1

def partyStores : Stores := { queuedStores with
  groups := fun _ => { LfgGroupData.initial with state := .queued, oldState := .dungeon } }

/-- A group of three in its dungeon, and damage dealers. -/
def trioQueue : LFGQueue := { LFGQueue.empty with
  queueDataStore := fun guid =>
    if guid = partyGuid then
      some (.joined 0 {7} ⟨[(11,Role.tank),(12,Role.healer),(13,Role.damage)],by decide⟩)
    else some (soloData guid Role.damage {7,8}) }

theorem proposal_order_trio :
    ∃ m m', Creates peace partyStores [partyGuid,8,9] ⟨trioQueue,.empty,[3]⟩ m ∧
      Creates peace partyStores [partyGuid,9,8] ⟨trioQueue,.empty,[3]⟩ m' ∧ SameProposal m m' ∧
      NewOk partyStores [partyGuid,8,9] m ∧ NewOk partyStores [partyGuid,9,8] m' := by
  have hmatch : (checkCompatibility peace partyStores [partyGuid,8,9] ⟨trioQueue,.empty,[3]⟩).1 =
      .match := by decide +kernel
  have hmatch' : (checkCompatibility peace partyStores [partyGuid,9,8] ⟨trioQueue,.empty,[3]⟩).1 =
      .match := by decide +kernel
  obtain ⟨m,hm⟩ := creates_of_match hmatch
  obtain ⟨m',hm'⟩ := creates_of_match hmatch'
  have hcount : Countable trioQueue [partyGuid,8,9] := by
    unfold Countable
    decide +kernel
  have htells : FrontTells partyStores [partyGuid,8,9] ∧ FrontTells partyStores [partyGuid,9,8] := by
    unfold FrontTells
    decide +kernel
  exact ⟨m,m',hm,hm',(proposal_order_iff (by decide +kernel) hcount hm hm').mpr htells⟩

def partyQueue : LFGQueue := { LFGQueue.empty with
  queueDataStore := fun guid =>
    if guid = partyGuid then
      some (.joined 0 {7} ⟨[(11,Role.tank),(12,Role.healer),(13,Role.damage),(14,Role.damage)],by decide⟩)
    else some (soloData guid Role.damage {7}) }

/-- With the player in front the group counts as new, and its members are asked. -/
theorem front_decides : ¬ ∀ (e : Env) (d : Stores) (s : Search) (check check' : List Nat)
    (m m' : Match), check.Perm check' → Creates e d check s m → Creates e d check' s m' →
    SameProposal m m' ∧ NewOk d check m ∧ NewOk d check' m' := by
  intro h
  have hmatch : (checkCompatibility peace partyStores [partyGuid,9] ⟨partyQueue,.empty,[3]⟩).1 =
      .match := by decide +kernel
  have hmatch' : (checkCompatibility peace partyStores [9,partyGuid] ⟨partyQueue,.empty,[3]⟩).1 =
      .match := by decide +kernel
  obtain ⟨m,hm⟩ := creates_of_match hmatch
  obtain ⟨m',hm'⟩ := creates_of_match hmatch'
  have hsame := (h _ _ _ _ _ m m' (List.Perm.swap 9 partyGuid []) hm hm').1.isNew
  have hnew : (verdict peace partyStores partyQueue [partyGuid,9]).match?.map (·.isNew) =
      some false := by decide +kernel
  have hnew' : (verdict peace partyStores partyQueue [9,partyGuid]).match?.map (·.isNew) =
      some true := by decide +kernel
  rw [hm.full] at hnew
  rw [hm'.full] at hnew'
  have hold : m.isNew = false := Option.some.inj hnew
  have hfresh : m'.isNew = true := Option.some.inj hnew'
  rw [hold,hfresh] at hsame
  cases hsame

end Order

section Leader

theorem unled_of_offered : ∀ v r : Role, v ||| (r &&& ~~~Role.leader) = r &&& ~~~Role.leader →
    v &&& Role.leader = 0 := by
  intro v r h
  have hnone : ∀ r : Role, r &&& ~~~Role.leader &&& Role.leader = 0 := by decide
  have hbits := congrArg (· &&& Role.leader) h
  simpa [BitVec.and_or_distrib_right,hnone] using hbits

theorem checkRoles_unled (groles : List Role) :
    ∀ r ∈ (checkRoles groles).2, r &&& Role.leader = 0 := by
  have hspec := checkRolesFuel_spec (3*groles.length+1) (groles.map (· &&& ~~~Role.leader))
  have hoffered : Offered (checkRoles groles).2 (groles.map (· &&& ~~~Role.leader)) := by
    unfold checkRoles
    generalize checkRolesFuel _ (groles.map (· &&& ~~~Role.leader)) = r at hspec
    obtain ⟨_ | _,vs⟩ := r
    · obtain rfl : vs = groles.map (· &&& ~~~Role.leader) := hspec
      exact ⟨rfl,fun _ => BitVec.or_self⟩
    · exact hspec.1
  intro v hv
  obtain ⟨i,hi,rfl⟩ := List.getElem_of_mem hv
  have hbits := hoffered.2 i
  have hlt : i < groles.length := by
    have hlength := hoffered.1
    rw [List.length_map] at hlength
    omega
  rw [List.getD_eq_getElem _ _ hi,List.getD_eq_getElem _ _ (by rwa [List.length_map]),
    List.getElem_map] at hbits
  exact unled_of_offered _ _ hbits

theorem fullMatch_unled (h : verdict e d q check = .full m) (hne : check ≠ []) :
    ∀ p ∈ m.roles.entries, p.2 &&& Role.leader = 0 := by
  obtain ⟨c,rs,-,-,-,-,rfl⟩ := verdict_full_counted h hne
  intro p hp
  refine checkRoles_unled rs.values p.2 ?_
  have hvalues : (checkGroupRoles rs).2.values = (checkRoles rs.values).2 :=
    OrderedMap.values_setValues ((length_checkRoles rs.values).trans (by
      simp [OrderedMap.values,OrderedMap.size]))
  rw [← hvalues]
  exact List.mem_map_of_mem hp

variable {ps : List (Nat × Role)} {l x : Nat}

theorem chooseLeader_unled {p : Nat × Role} (hp : p.2 &&& Role.leader = 0) (l : Nat)
    (rolls : List Nat) : chooseLeader (false,l,rolls) p =
      if l = 0 then (false,p.1,rolls)
      else (false,if rolls.headD 0 % 2 ≠ 0 then p.1 else l,rolls.tail) := by
  simp only [chooseLeader,hp,ne_eq,not_true_eq_false,if_false,Bool.false_eq_true]

theorem rolls_left (hps : ∀ p ∈ ps, p.2 &&& Role.leader = 0) (l : Nat) (left : List Nat) :
    ∃ rolls, (ps.foldl chooseLeader (false,l,rolls)).2.2 = left := by
  induction ps generalizing l with
  | nil => exact ⟨left,rfl⟩
  | cons p ps ih =>
    have hhead := hps p List.mem_cons_self
    have hrest := ih fun p' hp' => hps p' (List.mem_cons_of_mem p hp')
    by_cases hl : l = 0
    · obtain ⟨rolls,hrolls⟩ := hrest p.1
      refine ⟨rolls,?_⟩
      rwa [List.foldl_cons,chooseLeader_unled hhead,if_pos hl]
    · obtain ⟨rolls,hrolls⟩ := hrest l
      refine ⟨0 :: rolls,?_⟩
      rwa [List.foldl_cons,chooseLeader_unled hhead,if_neg hl]

theorem chosen_mem (hps : ∀ p ∈ ps, p.2 &&& Role.leader = 0) (hkeys : ∀ p ∈ ps, p.1 ≠ 0)
    (hl : l ≠ 0) (rolls : List Nat) : (ps.foldl chooseLeader (false,l,rolls)).2.1 ∈ l :: ps.map Prod.fst := by
  induction ps generalizing l rolls with
  | nil => exact List.mem_singleton_self l
  | cons p ps ih =>
    have hrest : ∀ {l}, l ≠ 0 → ∀ rolls,
        (ps.foldl chooseLeader (false,l,rolls)).2.1 ∈ l :: ps.map Prod.fst :=
      ih (fun p' hp' => hps p' (List.mem_cons_of_mem p hp'))
        fun p' hp' => hkeys p' (List.mem_cons_of_mem p hp')
    rw [List.foldl_cons,chooseLeader_unled (hps p List.mem_cons_self),if_neg hl]
    split_ifs
    · exact List.mem_cons_of_mem l (hrest (hkeys p List.mem_cons_self) _)
    · rcases List.mem_cons.mp (hrest hl rolls.tail) with heq | hmem
      · rw [heq]
        exact List.mem_cons_self
      · exact List.mem_cons_of_mem l (List.mem_cons_of_mem p.1 hmem)

theorem chosen_reach (hps : ∀ p ∈ ps, p.2 &&& Role.leader = 0) (hkeys : ∀ p ∈ ps, p.1 ≠ 0)
    (hl : l ≠ 0) (hx : x ∈ l :: ps.map Prod.fst) :
    ∃ rolls, (ps.foldl chooseLeader (false,l,rolls)).2.1 = x := by
  induction ps generalizing l with
  | nil => exact ⟨[],(List.mem_singleton.mp hx).symm⟩
  | cons p ps ih =>
    have hhead := hps p List.mem_cons_self
    have hrest : ∀ {l}, l ≠ 0 → x ∈ l :: ps.map Prod.fst →
        ∃ rolls, (ps.foldl chooseLeader (false,l,rolls)).2.1 = x :=
      ih (fun p' hp' => hps p' (List.mem_cons_of_mem p hp'))
        fun p' hp' => hkeys p' (List.mem_cons_of_mem p hp')
    rw [List.map_cons] at hx
    rcases List.mem_cons.mp hx with rfl | hx
    · obtain ⟨rolls,hrolls⟩ := hrest hl List.mem_cons_self
      refine ⟨0 :: rolls,?_⟩
      rwa [List.foldl_cons,chooseLeader_unled hhead,if_neg hl]
    · obtain ⟨rolls,hrolls⟩ := hrest (hkeys p List.mem_cons_self) hx
      refine ⟨1 :: rolls,?_⟩
      rwa [List.foldl_cons,chooseLeader_unled hhead,if_neg hl]

/-- The leader of some players in ascending order, one of whom has a guid other than 0. -/
structure Leaders (ps : List (Nat × Role)) : Prop where
  mem : ∀ rolls, (ps.foldl chooseLeader (false,0,rolls)).2.1 ∈ ps.map Prod.fst ∧
    (ps.foldl chooseLeader (false,0,rolls)).2.1 ≠ 0
  reach : ∀ x ∈ ps.map Prod.fst, x ≠ 0 → ∃ rolls, (ps.foldl chooseLeader (false,0,rolls)).2.1 = x

theorem leaders_of_pos (hps : ∀ p ∈ ps, p.2 &&& Role.leader = 0) (hkeys : ∀ p ∈ ps, p.1 ≠ 0)
    (hne : ps ≠ []) : Leaders ps := by
  cases ps with
  | nil => exact absurd rfl hne
  | cons p ps =>
    have hunled := fun p' hp' => hps p' (List.mem_cons_of_mem p hp')
    have hpos := fun p' hp' => hkeys p' (List.mem_cons_of_mem p hp')
    have hfirst : ∀ rolls, (p :: ps).foldl chooseLeader (false,0,rolls) =
        ps.foldl chooseLeader (false,p.1,rolls) := fun rolls => by
      rw [List.foldl_cons,chooseLeader_unled (hps p List.mem_cons_self),if_pos rfl]
    refine ⟨fun rolls => ?_,fun x hx _ => ?_⟩
    · rw [hfirst]
      have hmem := chosen_mem hunled hpos (hkeys p List.mem_cons_self) rolls
      refine ⟨hmem,?_⟩
      obtain ⟨p',hp',heq⟩ := List.mem_map.mp (List.map_cons ▸ hmem)
      rw [← heq]
      exact hkeys p' hp'
    · obtain ⟨rolls,hrolls⟩ := chosen_reach hunled hpos (hkeys p List.mem_cons_self) hx
      exact ⟨rolls,by rw [hfirst,hrolls]⟩

theorem leaders (hps : ∀ p ∈ ps, p.2 &&& Role.leader = 0)
    (hsorted : ps.Pairwise fun a b => a.1 < b.1) (hpos : ∃ p ∈ ps, p.1 ≠ 0) : Leaders ps := by
  cases ps with
  | nil => simp at hpos
  | cons p ps =>
    obtain ⟨hless,-⟩ := List.pairwise_cons.mp hsorted
    have hrest : ∀ p' ∈ ps, p'.1 ≠ 0 := fun p' hp' => Nat.ne_zero_of_lt (hless p' hp')
    by_cases hzero : p.1 = 0
    · -- guid 0 comes first and counts as nobody
      have hne : ps ≠ [] := by
        rintro rfl
        obtain ⟨p',hp',hne⟩ := hpos
        obtain rfl := List.mem_singleton.mp hp'
        exact hne hzero
      obtain ⟨hmem,hreach⟩ := leaders_of_pos (fun p' hp' => hps p' (List.mem_cons_of_mem p hp'))
        hrest hne
      have hfirst : ∀ rolls, (p :: ps).foldl chooseLeader (false,0,rolls) =
          ps.foldl chooseLeader (false,0,rolls) := fun rolls => by
        rw [List.foldl_cons,chooseLeader_unled (hps p List.mem_cons_self),if_pos rfl,hzero]
      refine ⟨fun rolls => ?_,fun x hx hxpos => ?_⟩
      · rw [hfirst]
        exact ⟨List.mem_cons_of_mem p.1 (hmem rolls).1,(hmem rolls).2⟩
      · rcases List.mem_cons.mp hx with rfl | hx
        · exact absurd hzero hxpos
        · obtain ⟨rolls,hrolls⟩ := hreach x hx hxpos
          exact ⟨rolls,by rw [hfirst,hrolls]⟩
    · refine leaders_of_pos hps (fun p' hp' => ?_) (List.cons_ne_nil p ps)
      rcases List.mem_cons.mp hp' with rfl | hp'
      · exact hzero
      · exact hrest p' hp'

theorem record_rolls (check : List Nat) (s : Search) : (record e d check s).2.rolls =
    match verdict e d s.queue check with
    | .full m => if d.allQueued check then
        (m.roles.entries.foldl chooseLeader (false,0,s.rolls.tail)).2.2 else s.rolls
    | _ => s.rolls := by
  unfold record
  cases verdict e d s.queue check with
  | full m => cases d.allQueued check <;> rfl
  | _ => rfl

theorem checkCompatibility_left (check : List Nat) (s : Search) (left : List Nat) :
    ∃ rolls, (checkCompatibility e d check { s with rolls := rolls }).2.rolls = left := by
  induction check generalizing left with
  | nil => exact ⟨left,rfl⟩
  | cons front check ih =>
    -- the last part of the check, whatever state it starts from
    have hrecord : ∃ before, ∀ s' : Search, (∀ guid, s'.queue.view guid = s.queue.view guid) →
        s'.rolls = before → (record e d (front :: check) s').2.rolls = left := by
      cases hv : verdict e d s.queue (front :: check) with
      | full m =>
        cases hq : d.allQueued (front :: check) with
        | true =>
          obtain ⟨rolls,hrolls⟩ := rolls_left (fullMatch_unled hv (List.cons_ne_nil _ _)) 0 left
          refine ⟨0 :: rolls,fun s' hview hs' => ?_⟩
          rw [record_rolls,verdict_congr hview,hv,hs']
          simpa [hq] using hrolls
        | false =>
          refine ⟨left,fun s' hview hs' => ?_⟩
          rw [record_rolls,verdict_congr hview,hv]
          simpa [hq] using hs'
      | _ =>
        refine ⟨left,fun s' hview hs' => ?_⟩
        rw [record_rolls,verdict_congr hview,hv]
        exact hs'
    obtain ⟨before,hbefore⟩ := hrecord
    by_cases hlong : (front :: check).length > maxGroupSize
    · exact ⟨left,by simp only [checkCompatibility,if_pos hlong]⟩
    by_cases hseveral : check.length ≥ 2
    · have hfst : ∀ rolls, (checkCompatibility e d check { s with rolls := rolls }).1 =
          compat e d s.queue check := fun rolls => checkCompatibility_fst check _
      by_cases hchild : (compat e d s.queue check).compatible
      · obtain ⟨rolls,hrolls⟩ := ih before
        refine ⟨rolls,?_⟩
        simp only [checkCompatibility,if_neg hlong,if_pos hseveral,hfst,hchild,Bool.not_true,
          Bool.false_eq_true,if_false]
        exact hbefore _ (checkCompatibility_keeps check _).view hrolls
      · obtain ⟨rolls,hrolls⟩ := ih left
        refine ⟨rolls,?_⟩
        simp only [checkCompatibility,if_neg hlong,if_pos hseveral,hfst,hchild,Bool.not_false,if_true]
        exact hrolls
    · refine ⟨before,?_⟩
      simp only [checkCompatibility,if_neg hlong,if_neg hseveral]
      exact hbefore _ (fun _ => rfl) rfl

theorem afterChild_left (check : List Nat) (s : Search) (left : List Nat) :
    ∃ rolls, (afterChild e d check { s with rolls := rolls }).rolls = left := by
  cases check with
  | nil => exact ⟨left,rfl⟩
  | cons front check =>
    simp only [afterChild]
    split_ifs
    · exact checkCompatibility_left check s left
    · exact ⟨left,rfl⟩

def Wants (q : LFGQueue) (check : List Nat) (x : Nat) : Prop :=
  ∃ g ∈ check, ((roles q g).find? x).any fun r => r &&& Role.leader != 0

def LeaderHonoured (q : LFGQueue) (check : List Nat) (p : LfgProposal) : Prop :=
  (∃ x ∈ p.players.keys, Wants q check x) → p.leader ∈ p.players.keys ∧ Wants q check p.leader

def Proposals.latest (ps : Proposals) : Option LfgProposal := ps.store.find? ps.lastId

theorem Creates.reroll (h : Creates e d check s m) (rolls : List Nat) :
    Creates e d check { s with rolls := rolls } m := by
  have hmatch : (checkCompatibility e d check { s with rolls := rolls }).1 = .match := by
    have hfst := checkCompatibility_fst (e := e) (d := d) check s
    rw [h.made] at hfst
    rw [checkCompatibility_fst]
    exact hfst.symm
  obtain ⟨m',h'⟩ := creates_of_match hmatch
  obtain rfl : m = m' := Verdict.full.inj (h.full.symm.trans h'.full)
  exact h'

theorem Creates.latest (h : Creates e d check s m) :
    (checkCompatibility e d check s).2.proposals.latest = some
      { newProposal e check m (afterChild e d check s) with
        id := (afterChild e d check s).proposals.nextId } := by
  rw [h.made]
  exact (find?_addProposal _ _ rfl _).trans (if_pos rfl)

/-- The wish to lead is honoured for all random numbers if and only if nobody of the match has it,
or everybody has. -/
theorem leader_honoured_iff (h : Creates e d check s m) :
    (∀ rolls p, (checkCompatibility e d check { s with rolls := rolls }).2.proposals.latest = some p →
      LeaderHonoured s.queue check p) ↔
    (∀ x ∈ m.roles.keys, ¬ Wants s.queue check x) ∨
      ∀ x ∈ m.roles.keys, x ≠ 0 → Wants s.queue check x := by
  have hunled := fullMatch_unled h.full h.ne_nil
  have hpos : ∃ p ∈ m.roles.entries, p.1 ≠ 0 := by
    have hsize := verdict_full_size h.full h.ne_nil
    unfold maxGroupSize at hsize
    by_contra hnone
    have hzero : ∀ k ∈ m.roles.keys, k = 0 := by
      intro k hk
      obtain ⟨p,hp,rfl⟩ := List.mem_map.mp hk
      exact not_not.mp fun hne => hnone ⟨p,hp,hne⟩
    have hrep := List.eq_replicate_iff.mpr ⟨rfl,hzero⟩
    have hnodup := m.roles.nodup_keys
    rw [hrep,List.nodup_replicate,OrderedMap.keys,List.length_map] at hnodup
    change m.roles.size ≤ 1 at hnodup
    omega
  obtain ⟨hmem,hreach⟩ := leaders hunled m.roles.sorted hpos
  have hkeys : ∀ s', (newProposal e check m s').players.keys = m.roles.keys := fun s' =>
    OrderedMap.keys_map _
  have hleader : ∀ s', (newProposal e check m s').leader =
      (m.roles.entries.foldl chooseLeader (false,0,s'.rolls.tail)).2.1 := fun s' => rfl
  constructor
  · intro hall
    by_contra hneither
    obtain ⟨hsome,hsome'⟩ := not_or.mp hneither
    push Not at hsome hsome'
    obtain ⟨x,hx,hwants⟩ := hsome
    obtain ⟨y,hy,hypos,hnot⟩ := hsome'
    obtain ⟨left,hleft⟩ := hreach y hy hypos
    obtain ⟨rolls,hrolls⟩ := afterChild_left (e := e) (d := d) check s (0 :: left)
    have hhonoured := hall rolls _ (h.reroll rolls).latest
    have hchosen := (hhonoured ⟨x,by simpa [hkeys] using hx,hwants⟩).2
    dsimp only at hchosen
    rw [hleader,hrolls,List.tail_cons,hleft] at hchosen
    exact hnot hchosen
  · intro hcond rolls p hp
    rw [(h.reroll rolls).latest] at hp
    obtain rfl := Option.some.inj hp
    rintro ⟨x,hx,hwants⟩
    dsimp only at hx ⊢
    rw [hkeys] at hx ⊢
    rw [hleader]
    obtain ⟨hin,hne⟩ := hmem (afterChild e d check { s with rolls := rolls }).rolls.tail
    rcases hcond with hnone | hwant
    · exact absurd hwants (hnone x hx)
    · exact ⟨hin,hwant _ hin hne⟩

def wishQueue (wants : Nat → Bool) : LFGQueue := { soloQueue with
  queueDataStore := fun guid => (soloQueue.queueDataStore guid).map fun data => { data with
    roles := data.roles.map fun _ r => if wants guid then r ||| Role.leader else r } }

theorem leader_honoured_all : ∃ m, Creates peace queuedStores [5,1,2,3,4]
      ⟨wishQueue fun _ => true,.empty,[]⟩ m ∧ ∀ rolls p,
    (checkCompatibility peace queuedStores [5,1,2,3,4]
      ⟨wishQueue fun _ => true,.empty,rolls⟩).2.proposals.latest = some p →
    LeaderHonoured (wishQueue fun _ => true) [5,1,2,3,4] p := by
  have hmatch : (checkCompatibility peace queuedStores [5,1,2,3,4]
      ⟨wishQueue fun _ => true,.empty,[]⟩).1 = .match := by decide +kernel
  obtain ⟨m,hm⟩ := creates_of_match hmatch
  refine ⟨m,hm,(leader_honoured_iff hm).mpr (.inr ?_)⟩
  have hkeys : (verdict peace queuedStores (wishQueue fun _ => true) [5,1,2,3,4]).match?.map
      (·.roles.keys) = some [1,2,3,4,5] := by decide +kernel
  rw [hm.full] at hkeys
  have hkeys' : m.roles.keys = [1,2,3,4,5] := Option.some.inj hkeys
  rw [hkeys']
  unfold Wants
  decide +kernel

theorem wish_forgotten : ¬ ∀ (e : Env) (d : Stores) (check : List Nat) (s : Search) (m : Match),
    Creates e d check s m → ∀ rolls p,
      (checkCompatibility e d check { s with rolls := rolls }).2.proposals.latest = some p →
      LeaderHonoured s.queue check p := by
  intro h
  have hmatch : (checkCompatibility peace queuedStores [5,1,2,3,4]
      ⟨wishQueue (· == 5),.empty,[]⟩).1 = .match := by decide +kernel
  obtain ⟨m,hm⟩ := creates_of_match hmatch
  have hlatest : ((checkCompatibility peace queuedStores [5,1,2,3,4]
      ⟨wishQueue (· == 5),.empty,[]⟩).2.proposals.latest).map (fun p => (p.leader,p.players.keys)) =
      some (1,[1,2,3,4,5]) := by decide +kernel
  obtain ⟨p,hp,heq⟩ := Option.map_eq_some_iff.mp hlatest
  obtain ⟨hleader,hkeys⟩ := Prod.mk.inj heq
  have hhonoured := h _ _ _ _ m hm [] p hp
  unfold LeaderHonoured at hhonoured
  rw [hleader,hkeys] at hhonoured
  revert hhonoured
  unfold Wants
  decide +kernel

end Leader

end TrinityCore.Lfg
