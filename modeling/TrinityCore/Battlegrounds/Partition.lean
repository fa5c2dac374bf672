import Mathlib
import TrinityCore.Battlegrounds.Update

set_option autoImplicit false

/-!
The queue is partitioned: every group is in one list of one bracket, and the players of the
queue are the players of its groups. Selecting groups only touches the selection pools; the
lists change where a group joins, leaves or moves.
-/

namespace TrinityCore.Battlegrounds

variable {q q' : BattlegroundQueue} {g : Nat} {s : Slot} {e : Option Nat}

def occurrences (q : BattlegroundQueue) (g : Nat) : Nat :=
  ∑ s : Slot, (q.queuedGroups s).count g

structure Partition (q : BattlegroundQueue) : Prop where
  once : ∀ g i, q.groups g = some i → occurrences q g = 1
  listed : ∀ s, ∀ g ∈ q.queuedGroups s, ∃ i, q.groups g = some i ∧ i.players ≠ ∅
  players : ∀ p g, q.queuedPlayers p = some g ↔ ∃ i, q.groups g = some i ∧ p ∈ i.players

/-- A premade list holds groups of its own team, the group `e` perhaps excepted; new groups
get new numbers. -/
structure Inv (e : Option Nat) (q : BattlegroundQueue) : Prop extends Partition q where
  fresh : ∀ g i, q.groups g = some i → g < q.next
  teams : ∀ b t, ∀ g ∈ q.queuedGroups (b,.premade t), e ≠ some g → (q.info g).team = t

theorem inv_empty : Inv none .empty where
  once := nofun
  listed := nofun
  players := by simp [BattlegroundQueue.empty]
  fresh := nofun
  teams := nofun

section Lists

theorem occurrences_setList (l : List Nat) :
    occurrences (q.setList s l) g+(q.queuedGroups s).count g = occurrences q g+l.count g := by
  have hu : ∀ s', ((q.setList s l).queuedGroups s').count g =
      Function.update (fun s' => (q.queuedGroups s').count g) s (l.count g) s' := by
    intro s'
    by_cases hs : s' = s
    · subst hs
      simp [BattlegroundQueue.setList]
    · simp [BattlegroundQueue.setList,hs]
  unfold occurrences
  rw [Finset.sum_congr rfl (fun s' _ => hu s'),Finset.sum_update_of_mem (Finset.mem_univ s),
    Finset.sum_eq_add_sum_sdiff_singleton_of_mem (Finset.mem_univ s) fun s' =>
      (q.queuedGroups s').count g]
  omega

theorem count_le_occurrences (s : Slot) : (q.queuedGroups s).count g ≤ occurrences q g :=
  Finset.single_le_sum (f := fun s => (q.queuedGroups s).count g) (fun _ _ => Nat.zero_le _)
    (Finset.mem_univ s)

theorem slot_unique (h : occurrences q g = 1) {s' : Slot} (hs : g ∈ q.queuedGroups s)
    (hs' : g ∈ q.queuedGroups s') : s = s' := by
  by_contra hne
  have h1 := List.count_pos_iff.mpr hs
  have h2 := List.count_pos_iff.mpr hs'
  have hle : ∑ r ∈ {s,s'}, (q.queuedGroups r).count g ≤ occurrences q g :=
    Finset.sum_le_sum_of_subset (Finset.subset_univ _)
  rw [Finset.sum_pair hne] at hle
  omega

theorem mem_setList {l : List Nat} {s' : Slot} :
    g ∈ (q.setList s l).queuedGroups s' ↔
      if s' = s then g ∈ l else g ∈ q.queuedGroups s' := by
  split_ifs with hs
  · simp [BattlegroundQueue.setList,hs]
  · simp [BattlegroundQueue.setList,hs]

@[simp] theorem setList_groups (l : List Nat) : (q.setList s l).groups = q.groups := rfl

@[simp] theorem setList_queuedPlayers (l : List Nat) :
    (q.setList s l).queuedPlayers = q.queuedPlayers := rfl

@[simp] theorem setList_next (l : List Nat) : (q.setList s l).next = q.next := rfl

end Lists

namespace Inv

theorem info_eq (h : Inv e q) (hg : g ∈ q.queuedGroups s) :
    q.groups g = some (q.info g) ∧ (q.info g).players ≠ ∅ := by
  obtain ⟨i,hi,hp⟩ := h.listed s g hg
  have : q.info g = i := by simp [BattlegroundQueue.info,hi]
  rw [this]
  exact ⟨hi,hp⟩

theorem once_of_mem (h : Inv e q) (hg : g ∈ q.queuedGroups s) : occurrences q g = 1 :=
  h.once g _ (h.info_eq hg).1

theorem pools (h : Inv e q) (f : Team → SelectionPool) : Inv e { q with selectionPools := f } :=
  ⟨⟨h.once,h.listed,h.players⟩,h.fresh,h.teams⟩

theorem setInfo (h : Inv e q) {i : GroupQueueInfo} (hi : i.players = (q.info g).players)
    (ht : ∀ b t, g ∈ q.queuedGroups (b,.premade t) → e ≠ some g → i.team = t) :
    Inv e (q.setInfo g i) := by
  have hgr : ∀ g' i', (q.setInfo g i).groups g' = some i' →
      ∃ i'', q.groups g' = some i'' ∧ i''.players = i'.players := by
    intro g' i' hg'
    by_cases hgg : g' = g
    · subst hgg
      simp only [BattlegroundQueue.setInfo,Function.update_self,Option.map_eq_some_iff] at hg'
      obtain ⟨i'',hi'',rfl⟩ := hg'
      exact ⟨i'',hi'',by rw [hi]; simp [BattlegroundQueue.info,hi'']⟩
    · simp only [BattlegroundQueue.setInfo,Function.update_of_ne hgg] at hg'
      exact ⟨i',hg',rfl⟩
  have hgr' : ∀ g' i', q.groups g' = some i' →
      ∃ i'', (q.setInfo g i).groups g' = some i'' ∧ i''.players = i'.players := by
    intro g' i' hg'
    by_cases hgg : g' = g
    · subst hgg
      exact ⟨i,by simp [BattlegroundQueue.setInfo,hg'],by rw [hi]; simp [BattlegroundQueue.info,hg']⟩
    · exact ⟨i',by simpa [BattlegroundQueue.setInfo,hgg] using hg',rfl⟩
  refine ⟨⟨fun g' i' hg' => ?_,fun s g' hg' => ?_,fun p g' => ?_⟩,fun g' i' hg' => ?_,
    fun b t g' hg' he => ?_⟩
  · obtain ⟨i'',hi'',-⟩ := hgr g' i' hg'
    exact h.once g' i'' hi''
  · obtain ⟨i',hi',hp⟩ := h.listed s g' hg'
    obtain ⟨i'',hi'',hpp⟩ := hgr' g' i' hi'
    exact ⟨i'',hi'',by rw [hpp]; exact hp⟩
  · refine (h.players p g').trans ⟨?_,?_⟩
    · rintro ⟨i',hi',hp⟩
      obtain ⟨i'',hi'',hpp⟩ := hgr' g' i' hi'
      exact ⟨i'',hi'',by rw [hpp]; exact hp⟩
    · rintro ⟨i',hi',hp⟩
      obtain ⟨i'',hi'',hpp⟩ := hgr g' i' hi'
      exact ⟨i'',hi'',by rw [hpp]; exact hp⟩
  · obtain ⟨i'',hi'',-⟩ := hgr g' i' hg'
    exact h.fresh g' i'' hi''
  · by_cases hgg : g' = g
    · subst hgg
      rw [BattlegroundQueue.info_setInfo_self (h.info_eq (s := (b,.premade t)) hg').1]
      exact ht b t hg' he
    · rw [BattlegroundQueue.info_setInfo_ne i hgg]
      exact h.teams b t g' hg' he

theorem move (h : Inv e q) {source target : Slot} (hg : g ∈ q.queuedGroups source)
    (hne : source ≠ target) (he : (∀ b t, target ≠ (b,.premade t)) ∨ e = some g) :
    Inv e (q.moveGroup g source target) := by
  have hcount : (q.queuedGroups source).count g = 1 := by
    have h1 := h.once_of_mem hg
    have h2 := count_le_occurrences (q := q) (g := g) source
    have h3 := List.count_pos_iff.mpr hg
    omega
  have hsource : (q.setList target (g :: q.queuedGroups target)).queuedGroups source =
      q.queuedGroups source := by simp [BattlegroundQueue.setList,hne]
  have hocc : ∀ g', occurrences (q.moveGroup g source target) g' = occurrences q g' := by
    intro g'
    have h1 := occurrences_setList (q := q) (g := g') (s := target) (g :: q.queuedGroups target)
    have h2 := occurrences_setList (q := q.setList target (g :: q.queuedGroups target)) (g := g')
      (s := source) ((q.queuedGroups source).erase g)
    rw [hsource] at h2
    simp only [BattlegroundQueue.moveGroup,hsource]
    by_cases hgg : g' = g
    · subst hgg
      rw [List.count_erase_self] at h2
      rw [List.count_cons_self] at h1
      omega
    · rw [List.count_erase_of_ne hgg] at h2
      rw [List.count_cons_of_ne (Ne.symm hgg)] at h1
      omega
  have hmem : ∀ s g', g' ∈ (q.moveGroup g source target).queuedGroups s →
      g' ∈ q.queuedGroups s ∨ (g' = g ∧ s = target) := by
    intro s g' hg'
    simp only [BattlegroundQueue.moveGroup,hsource,mem_setList] at hg'
    split_ifs at hg' with h1 h2
    · exact .inl (h1 ▸ List.mem_of_mem_erase hg')
    · rcases List.mem_cons.mp hg' with rfl | hg'
      · exact .inr ⟨rfl,h2⟩
      · exact .inl (h2 ▸ hg')
    · exact .inl hg'
  refine ⟨⟨fun g' i hi => (hocc g').trans (h.once g' i hi),fun s g' hg' => ?_,h.players⟩,h.fresh,
    fun b t g' hg' hne' => ?_⟩
  · rcases hmem s g' hg' with hg' | ⟨rfl,-⟩
    · exact h.listed s g' hg'
    · exact h.listed source g' hg
  · rcases hmem _ g' hg' with hg' | ⟨rfl,ht⟩
    · exact h.teams b t g' hg' hne'
    · rcases he with he | he
      · exact absurd ht.symm (he b t)
      · exact absurd he hne'

theorem except (h : Inv none q) (g : Nat) : Inv (some g) q :=
  ⟨h.toPartition,h.fresh,fun b t g' hg' _ => h.teams b t g' hg' nofun⟩

end Inv

def PoolsOnly (q q' : BattlegroundQueue) : Prop := ∃ f, q' = { q with selectionPools := f }

theorem PoolsOnly.refl (q : BattlegroundQueue) : PoolsOnly q q := ⟨q.selectionPools,rfl⟩

theorem PoolsOnly.setPool (q : BattlegroundQueue) (t : Team) (p : SelectionPool) :
    PoolsOnly q (q.setPool t p) := ⟨_,rfl⟩

theorem PoolsOnly.trans {q'' : BattlegroundQueue} (h : PoolsOnly q q') (h' : PoolsOnly q' q'') :
    PoolsOnly q q'' := by
  obtain ⟨f,rfl⟩ := h
  obtain ⟨f',rfl⟩ := h'
  exact ⟨f',rfl⟩

theorem PoolsOnly.inv (h : PoolsOnly q q') (hi : Inv e q) : Inv e q' := by
  obtain ⟨f,rfl⟩ := h
  exact hi.pools f

theorem poolsOnly_preAddPlayers (n : Nat) (gs : List Nat) (left : Int) (q : BattlegroundQueue) :
    PoolsOnly q (preAddPlayers n gs left q).2 := by
  induction gs generalizing left q with
  | nil => exact .refl q
  | cons g gs ih =>
    simp only [preAddPlayers]
    split_ifs
    · exact (PoolsOnly.setPool q _ _).trans (ih _ _)
    · exact (PoolsOnly.setPool q _ _).trans (ih _ _)
    · exact (PoolsOnly.setPool q _ _).trans (ih _ _)
    · exact (PoolsOnly.setPool q _ _).trans (ih _ _)
    · exact ih _ _

theorem poolsOnly_preAdd (q : BattlegroundQueue) (b : Fin 16) (aliFree hordeFree : Nat) :
    PoolsOnly q (preAdd q b aliFree hordeFree).2.2 :=
  (poolsOnly_preAddPlayers _ _ _ q).trans (poolsOnly_preAddPlayers _ _ _ _)

theorem poolsOnly_fillRegular (q : BattlegroundQueue) (cfg : Settings) (bg : Battleground)
    (b : Fin 16) : PoolsOnly q (fillRegular q cfg bg b) := ⟨_,rfl⟩

@[simp] theorem mem_bySizeDescending {gs : List Nat} : g ∈ bySizeDescending q gs ↔ g ∈ gs := by
  simp [bySizeDescending]

namespace Inv

theorem setTeam (h : Inv none q) (hg : ∀ b t, g ∉ q.queuedGroups (b,.premade t)) (t : Team) :
    Inv none (q.setInfo g { q.info g with team := t }) :=
  h.setInfo rfl (fun b t hm => absurd hm (hg b t))

theorem not_premade (h : Inv e q) {b : Fin 16} {ty : GroupType} (hg : g ∈ q.queuedGroups (b,ty))
    (ht : ∀ t, ty ≠ .premade t) : ∀ b' t, g ∉ q.queuedGroups (b',.premade t) := by
  intro b' t hg'
  have hs := slot_unique (h.once_of_mem hg) hg hg'
  exact ht t (congrArg Prod.snd hs)

theorem fillMixed (n aliFree hordeFree : Nat) (gs : List Nat) (vali vhorde : Int)
    (h : Inv none q) (hg : ∀ g ∈ gs, ∀ b t, g ∉ q.queuedGroups (b,.premade t)) :
    Inv none (Battlegrounds.fillMixed n aliFree hordeFree gs vali vhorde q) := by
  induction gs generalizing vali vhorde q with
  | nil => exact h
  | cons g gs ih =>
    have hrest : ∀ g' ∈ gs, ∀ b t, g' ∉ q.queuedGroups (b,.premade t) :=
      fun g' hg' => hg g' (List.mem_cons_of_mem _ hg')
    simp only [Battlegrounds.fillMixed]
    split_ifs
    · exact ih vali vhorde h hrest
    all_goals
      have hq : ∀ t p, Inv none ((q.setInfo g { q.info g with team := t }).setPool t p) :=
        fun t p => (PoolsOnly.setPool _ t p).inv (h.setTeam (hg g (by simp)) t)
      first
      | exact ih _ _ (hq _ _) hrest
      | split <;> exact ih _ _ (hq _ _) hrest

theorem fillX (h : Inv none q) (cfg : Settings) (b : Fin 16) (bg : Battleground) (start : Bool) :
    Inv none (fillXPlayersToBG q cfg b bg start).2 := by
  have hmixed : ∀ q', PoolsOnly q q' → Inv none q' ∧
      ∀ g ∈ bySizeDescending q' (q'.queuedGroups (b,.mixed)), ∀ b' t,
        g ∉ q'.queuedGroups (b',.premade t) := by
    intro q' hq'
    have h' := hq'.inv h
    exact ⟨h',fun g hg => h'.not_premade (mem_bySizeDescending.mp hg) (fun t => by cases t <;> nofun)⟩
  have hinit : PoolsOnly q q.initPools := ⟨_,rfl⟩
  unfold fillXPlayersToBG
  split_ifs
  · obtain ⟨h1,h2⟩ := hmixed _ (hinit.trans (poolsOnly_preAdd _ b _ _))
    exact h1.fillMixed _ _ _ _ _ _ h2
  · obtain ⟨h1,h2⟩ := hmixed _ hinit
    exact h1.fillMixed _ _ _ _ _ _ h2
  · exact h

theorem fillPlayers (h : Inv none q) (cfg : Settings) (bg : Battleground) (b : Fin 16) :
    Inv none (fillPlayersToBG q cfg bg b) := by
  have hx := h.fillX cfg b bg false
  unfold fillPlayersToBG
  split_ifs
  · exact (poolsOnly_fillRegular q cfg bg b).inv h
  · simp only
    split_ifs
    · exact hx
    · exact (poolsOnly_fillRegular _ cfg bg b).inv hx

theorem crossFaction (h : Inv none q) (cfg : Settings) (b : Fin 16) (bg : Battleground) :
    Inv none (checkCrossFactionMatch q cfg b bg).2 := by
  have hx := h.fillX cfg b bg true
  unfold checkCrossFactionMatch
  split_ifs
  · exact h
  · simp only
    split_ifs <;> exact hx

theorem invite (h : Inv e q) (cfg : Settings) (now inst : Nat) {side : Team}
    (hs : ∀ b t, g ∈ q.queuedGroups (b,.premade t) → e ≠ some g → side = t) :
    Inv e (inviteGroupToBG cfg now inst side g q) := by
  unfold inviteGroupToBG
  simp only
  split_ifs
  · exact h.setInfo rfl hs
  · exact h.setInfo rfl hs

theorem invite_except (h : Inv (some g) q) (cfg : Settings) (now inst : Nat) {side : Team}
    (hs : ∀ b t, g ∈ q.queuedGroups (b,.premade t) → side = t) :
    Inv none (inviteGroupToBG cfg now inst side g q) := by
  have h' := h.invite (g := g) cfg now inst (fun b t hg _ => hs b t hg)
  refine ⟨h'.toPartition,h'.fresh,fun b t g' hg' _ => ?_⟩
  by_cases hgg : g' = g
  · subst hgg
    have hi := h.info_eq (g := g') (s := (b,.premade t))
    unfold inviteGroupToBG at hg' ⊢
    simp only at hg' ⊢
    split_ifs at hg' ⊢
    all_goals
      rw [BattlegroundQueue.info_setInfo_self (hi hg').1]
      exact hs b t hg'
  · exact h'.teams b t g' hg' (by simpa using Ne.symm hgg)

theorem inviteGroups (h : Inv none q) (cfg : Settings) (now inst : Nat) (gs : List Nat) :
    Inv none (Battlegrounds.inviteGroups cfg now inst gs q) := by
  induction gs generalizing q with
  | nil => exact h
  | cons g gs ih =>
    exact ih (h.invite cfg now inst (fun b t hg _ => h.teams b t g hg nofun))

theorem invitePools (h : Inv none q) (cfg : Settings) (now inst : Nat) :
    Inv none (Battlegrounds.invitePools cfg now inst q) :=
  (h.inviteGroups cfg now inst _).inviteGroups cfg now inst _

theorem premadeToNormal (h : Inv none q) (cfg : Settings) (now : Nat) (b : Fin 16) (n : Nat)
    (t : Team) : Inv none (Battlegrounds.premadeToNormal cfg now b n t q) := by
  unfold Battlegrounds.premadeToNormal
  split
  · exact h
  · rename_i g gs hl
    split_ifs
    · refine h.move (by rw [hl]; simp) (fun hs => ?_) (.inl fun b' t' hs => ?_)
      · exact GroupType.normal_ne_premade t t (congrArg Prod.snd hs).symm
      · exact GroupType.normal_ne_premade t t' (congrArg Prod.snd hs)
    · exact h

theorem premadeMatch (h : Inv none q) (cfg : Settings) (now : Nat) (b : Fin 16) (n m : Nat) :
    Inv none (checkPremadeMatch cfg now b n m q).2 := by
  unfold checkPremadeMatch
  split
  · exact h.pools _
  · exact (h.premadeToNormal cfg now b n .alliance).premadeToNormal cfg now b n .horde

theorem normalMatch (h : Inv none q) (cfg : Settings) (b : Fin 16) (isBg : Bool) (n m : Nat) :
    Inv none (checkNormalMatch cfg b isBg n m q).2 := by
  unfold checkNormalMatch
  simp only
  split_ifs <;> exact h.pools _

theorem switchTeam (h : Inv none q) {b : Fin 16} {t : Team}
    (hg : g ∈ q.queuedGroups (b,.normal t.other)) : Inv none (Battlegrounds.switchTeam b t q g) := by
  have ht := h.setTeam (h.not_premade hg (GroupType.normal_ne_premade _)) t
  refine ht.move hg (fun hs => ?_) (.inl fun b' t' hs => ?_)
  · cases t <;> simp [GroupType.normal,Team.other] at hs
  · exact GroupType.normal_ne_premade t t' (congrArg Prod.snd hs)

theorem switchTeams {b : Fin 16} {t : Team} (gs : List Nat) (hnd : gs.Nodup) (h : Inv none q)
    (hg : ∀ g ∈ gs, g ∈ q.queuedGroups (b,.normal t.other)) :
    Inv none (gs.foldl (Battlegrounds.switchTeam b t) q) := by
  induction gs generalizing q with
  | nil => exact h
  | cons g gs ih =>
    rw [List.nodup_cons] at hnd
    refine ih hnd.2 (h.switchTeam (hg g (by simp))) (fun g' hg' => ?_)
    have hne : g' ≠ g := by rintro rfl; exact hnd.1 hg'
    have hm := hg g' (List.mem_cons_of_mem _ hg')
    have hts : ((b,.normal t.other) : Slot) ≠ (b,.normal t) := by
      cases t <;> simp [GroupType.normal,Team.other]
    simp only [Battlegrounds.switchTeam,BattlegroundQueue.moveGroup,mem_setList,if_true]
    rw [List.mem_erase_of_ne hne]
    simpa [BattlegroundQueue.setList,hts] using hm

end Inv

theorem sublist_addUninvited (q : BattlegroundQueue) (n : Nat) (gs : List Nat)
    (pool : SelectionPool) : ∃ l, List.Sublist l gs ∧
      (pool.addUninvited q n gs).selectedGroups = pool.selectedGroups ++ l := by
  induction gs generalizing pool with
  | nil => exact ⟨[],List.Sublist.refl _,by simp [SelectionPool.addUninvited]⟩
  | cons g gs ih =>
    have hadd : ∃ l, List.Sublist l [g] ∧
        (pool.addGroup q g n).2.selectedGroups = pool.selectedGroups ++ l := by
      unfold SelectionPool.addGroup
      split_ifs
      · exact ⟨[g],List.Sublist.refl _,rfl⟩
      · exact ⟨[],List.nil_sublist _,by simp⟩
    simp only [SelectionPool.addUninvited]
    split_ifs
    · obtain ⟨l,hl,he⟩ := ih pool
      exact ⟨l,hl.cons g,he⟩
    · obtain ⟨l,hl,he⟩ := ih (pool.addGroup q g n).2
      obtain ⟨l',hl',he'⟩ := hadd
      exact ⟨l' ++ l,hl'.append hl,by rw [he,he',List.append_assoc]⟩
    · obtain ⟨l',hl',he'⟩ := hadd
      exact ⟨l',hl'.trans (by simp),he'⟩

namespace Inv

theorem nodup_list (h : Inv e q) (s : Slot) : (q.queuedGroups s).Nodup := by
  rw [List.nodup_iff_count_le_one]
  intro g
  by_cases hg : g ∈ q.queuedGroups s
  · exact (count_le_occurrences s).trans (h.once_of_mem hg).le
  · rw [List.count_eq_zero_of_not_mem hg]
    exact Nat.zero_le 1

theorem skirmish (h : Inv none q) (b : Fin 16) (n : Nat) :
    Inv none (checkSkirmishForSameFaction b n q).2 := by
  unfold checkSkirmishForSameFaction
  simp only
  generalize (if playerCount q .horde = n then Team.horde else .alliance) = t
  split_ifs with h1
  · exact h
  · split
    · exact h.pools _
    · rename_i g _
      split_ifs with h2 h3
      · exact h.pools _
      · set q1 := q.setPool t.other .init
        set rest := (List.dropWhile (· != g) (q1.queuedGroups (b,.normal t))).tail
        have hsub : rest.Sublist (q.queuedGroups (b,.normal t)) :=
          (List.tail_sublist _).trans (List.dropWhile_sublist _)
        obtain ⟨l,hl,he⟩ := sublist_addUninvited q1 n rest (q1.selectionPools t.other)
        have hsel : ((q1.selectionPools t.other).addUninvited q1 n rest).selectedGroups = l := by
          rw [he]
          simp [q1,BattlegroundQueue.setPool,SelectionPool.init]
        have hpool : ((q1.setPool t.other ((q1.selectionPools t.other).addUninvited q1 n rest)
            ).selectionPools t.other).selectedGroups = l := by
          rw [← hsel]
          simp [BattlegroundQueue.setPool]
        have ht : t.other.other = t := by cases t <;> rfl
        rw [hpool]
        refine switchTeams l ((hl.trans hsub).nodup (h.nodup_list _)) (h.pools _) (fun g hg => ?_)
        rw [ht]
        exact (hl.trans hsub).subset hg
      · exact h.pools _

theorem setOpponents (h : Inv none q) (a g : Nat) :
    Inv none (Battlegrounds.setOpponents q a g) := by
  have keep : ∀ {q : BattlegroundQueue} {g : Nat} {i : GroupQueueInfo}, Inv none q →
      i.players = (q.info g).players → i.team = (q.info g).team → Inv none (q.setInfo g i) :=
    fun h hp ht => h.setInfo hp (fun b t hm he => ht.trans (h.teams b t _ hm he))
  exact keep (keep h rfl rfl) rfl rfl

theorem slot_of_move {s' r : Slot} (h : Inv e (q.moveGroup g s s')) (hne : s ≠ s')
    (hr : g ∈ (q.moveGroup g s s').queuedGroups r) : r = s' := by
  have hm : g ∈ (q.moveGroup g s s').queuedGroups s' := by
    simp [BattlegroundQueue.moveGroup,BattlegroundQueue.setList,hne.symm]
  exact slot_unique (h.once_of_mem hm) hr hm

end Inv

@[simp] theorem inviteGroupToBG_queuedGroups (cfg : Settings) (now inst : Nat) (side : Team) :
    (inviteGroupToBG cfg now inst side g q).queuedGroups = q.queuedGroups := by
  unfold inviteGroupToBG
  simp only
  split_ifs <;> rfl

theorem findTeams_spec {cfg : Settings} {now rating a : Nat} {b : Fin 16}
    (h : findTeams cfg now b q rating = some (a,g)) :
    (a ∈ q.queuedGroups (b,.premade .alliance) ∧ g ∈ q.queuedGroups (b,.premade .horde)) ∨
    ∃ t, a ≠ g ∧ a ∈ q.queuedGroups (b,.premade t) ∧ g ∈ q.queuedGroups (b,.premade t) := by
  have second : ∀ t a', a' ∈ q.queuedGroups (b,.premade t) →
      (((q.queuedGroups (b,.premade t)).dropWhile (· != a')).find? fun g =>
        rated cfg now q rating g && (q.info a').arenaTeamId != (q.info g).arenaTeamId).map
          (fun h => (a',h)) = some (a,g) →
      ∃ t, a ≠ g ∧ a ∈ q.queuedGroups (b,.premade t) ∧ g ∈ q.queuedGroups (b,.premade t) := by
    intro t a' ha' hf
    obtain ⟨g',hg',he⟩ := Option.map_eq_some_iff.mp hf
    obtain ⟨rfl,rfl⟩ : a' = a ∧ g' = g := by simpa using he
    have hp := List.find?_some hg'
    simp only [Bool.and_eq_true,bne_iff_ne,ne_eq] at hp
    refine ⟨t,?_,ha',(List.dropWhile_sublist _).subset (List.mem_of_find?_eq_some hg')⟩
    rintro rfl
    exact hp.2 rfl
  unfold findTeams at h
  simp only at h
  split at h
  · simp at h
  · rename_i a' ha' _
    exact .inr (second .alliance a' (List.mem_of_find?_eq_some ha') h)
  · rename_i a' _ ha'
    exact .inr (second .horde a' (List.mem_of_find?_eq_some ha') h)
  · rename_i a' g' ha' hg'
    obtain ⟨rfl,rfl⟩ : a' = a ∧ g' = g := by simpa using h
    exact .inl ⟨List.mem_of_find?_eq_some ha',List.mem_of_find?_eq_some hg'⟩

namespace Inv

theorem invite_own (h : Inv e q) (cfg : Settings) (now inst : Nat) {side : Team}
    (ht : (q.info g).team = side) : Inv e (inviteGroupToBG cfg now inst side g q) :=
  h.invite cfg now inst (fun b t hg he => ht.symm.trans (h.teams b t g hg he))

theorem startArena (h : Inv none q) (cfg : Settings) (now inst : Nat) {b : Fin 16} {a : Nat}
    (hf : (a ∈ q.queuedGroups (b,.premade .alliance) ∧ g ∈ q.queuedGroups (b,.premade .horde)) ∨
      ∃ t, a ≠ g ∧ a ∈ q.queuedGroups (b,.premade t) ∧ g ∈ q.queuedGroups (b,.premade t)) :
    Inv none (Battlegrounds.startArena cfg now b inst a g q) := by
  have h1 := h.setOpponents a g
  unfold Battlegrounds.startArena
  set q1 := Battlegrounds.setOpponents q a g
  have team : ∀ {x t}, x ∈ q.queuedGroups (b,.premade t) → (q1.info x).team = t :=
    fun hx => h1.teams b _ _ hx nofun
  simp only
  rcases hf with ⟨ha,hg⟩ | ⟨t,hag,ha,hg⟩
  · -- one team of each faction
    have e1 : ¬ (q1.info a).team ≠ .alliance := by simp [team ha]
    have e2 : ¬ (q1.info g).team ≠ .horde := by simp [team hg]
    simp only [e1,e2,if_false]
    have h2 := h1.invite_own cfg now inst (team ha)
    refine h2.invite cfg now inst (fun b' t' hm _ => ?_)
    rw [inviteGroupToBG_queuedGroups] at hm
    have hs := slot_unique (h1.once_of_mem hg) hg hm
    cases t' <;> simp [GroupType.premade] at hs ⊢
  · cases t with
    | alliance =>
      -- the second team changes sides
      have hne : ((b,.premade .alliance) : Slot) ≠ (b,.premade .horde) := by simp [GroupType.premade]
      have h2 := (h1.except g).move hg hne (.inr rfl)
      have e1 : ¬ (q1.info a).team ≠ .alliance := by simp [team ha]
      have e2 : (q1.info g).team ≠ .horde := by simp [team hg]
      rw [if_neg e1,if_pos e2]
      have h3 := h2.invite_own (g := a) cfg now inst (team ha)
      refine h3.invite_except cfg now inst (fun b' t' hm => ?_)
      rw [inviteGroupToBG_queuedGroups] at hm
      have hs := h2.slot_of_move hne hm
      cases t' <;> simp [GroupType.premade] at hs ⊢
    | horde =>
      -- the first team changes sides
      have hne : ((b,.premade .horde) : Slot) ≠ (b,.premade .alliance) := by simp [GroupType.premade]
      have h2 := (h1.except a).move ha hne (.inr rfl)
      have hgt : ((q1.moveGroup a (b,.premadeHorde) (b,.premadeAlliance)).info g).team = .horde :=
        team hg
      have e1 : (q1.info a).team ≠ .alliance := by simp [team ha]
      have e2 : ¬ ((q1.moveGroup a (b,.premadeHorde) (b,.premadeAlliance)).info g).team ≠ .horde := by
        simp [hgt]
      rw [if_pos e1,if_neg e2]
      have h3 : Inv none (inviteGroupToBG cfg now inst .alliance a
          (q1.moveGroup a (b,.premade .horde) (b,.premade .alliance))) := by
        refine h2.invite_except cfg now inst (fun b' t' hm => ?_)
        have hs := h2.slot_of_move hne hm
        cases t' <;> simp [GroupType.premade] at hs ⊢
      refine h3.invite_own cfg now inst ?_
      unfold inviteGroupToBG
      simp only
      split_ifs
      all_goals
        rw [BattlegroundQueue.info_setInfo_ne _ (Ne.symm hag)]
        exact hgt

theorem ratedMatch (h : Inv none q) (cfg : Settings) (now : Nat) (b : Fin 16)
    (created : Option Nat) (rating : Nat) :
    Inv none (Battlegrounds.ratedMatch cfg now b created rating q) := by
  unfold Battlegrounds.ratedMatch
  split
  · exact h
  · rename_i r _
    cases hf : findTeams cfg now b q r with
    | none => exact h
    | some ag =>
      cases created with
      | none => exact h
      | some inst => exact h.startArena cfg now inst (findTeams_spec hf)

end Inv

theorem mem_of_findSlot (h : findSlot q g = some s) : g ∈ q.queuedGroups s := by
  obtain ⟨b,-,hb⟩ := List.exists_of_findSome?_eq_some h
  obtain ⟨t,ht,rfl⟩ := Option.map_eq_some_iff.mp hb
  simpa using (List.mem_filter.mp (List.mem_of_getLast? ht)).2

namespace Inv

theorem leave (h : Inv none q) {guid : Nat} (hp : q.queuedPlayers guid = some g)
    (hne : (q.info g).players.erase guid ≠ ∅) :
    Inv none { q.setInfo g { q.info g with players := (q.info g).players.erase guid } with
      queuedPlayers := Function.update q.queuedPlayers guid none } := by
  obtain ⟨i,hi,hgi⟩ := (h.players guid g).mp hp
  have hinfo : q.info g = i := by simp [BattlegroundQueue.info,hi]
  rw [hinfo] at hne ⊢
  set i' : GroupQueueInfo := { i with players := i.players.erase guid }
  have hself : (q.setInfo g i').groups g = some i' := by simp [BattlegroundQueue.setInfo,hi]
  have hother : ∀ g', g' ≠ g → (q.setInfo g i').groups g' = q.groups g' :=
    fun g' hg' => by simp [BattlegroundQueue.setInfo,hg']
  refine ⟨⟨fun g' j hj => ?_,fun s g' hg' => ?_,fun p g' => ?_⟩,fun g' j hj => ?_,
    fun b t g' hg' he => ?_⟩
  · by_cases hgg : g' = g
    · exact h.once g' i (hgg ▸ hi)
    · exact h.once g' j ((hother g' hgg).symm.trans hj)
  · by_cases hgg : g' = g
    · exact ⟨i',hgg ▸ hself,hne⟩
    · obtain ⟨j,hj,hjp⟩ := h.listed s g' hg'
      exact ⟨j,(hother g' hgg).trans hj,hjp⟩
  · by_cases hpg : p = guid
    · subst hpg
      simp only [Function.update_self,reduceCtorEq,false_iff,not_exists,not_and]
      intro j hj hjp
      by_cases hgg : g' = g
      · subst hgg
        obtain rfl : i' = j := by simpa [hself] using hj
        simp [i'] at hjp
      · have := (h.players p g').mpr ⟨j,(hother g' hgg).symm.trans hj,hjp⟩
        simp [hp] at this
        exact hgg this.symm
    · simp only [Function.update_of_ne hpg]
      rw [h.players p g']
      by_cases hgg : g' = g
      · subst hgg
        simp [hself,hi,i',hpg]
      · rw [hother g' hgg]
  · by_cases hgg : g' = g
    · exact h.fresh g' i (hgg ▸ hi)
    · exact h.fresh g' j ((hother g' hgg).symm.trans hj)
  · by_cases hgg : g' = g
    · subst hgg
      have := h.teams b t g' hg' he
      rw [hinfo] at this
      simpa [BattlegroundQueue.info,hself] using this
    · have := h.teams b t g' hg' he
      simpa [BattlegroundQueue.info,hother g' hgg] using this

theorem leave_last (h : Inv none q) {guid : Nat} (hp : q.queuedPlayers guid = some g)
    (he : (q.info g).players.erase guid = ∅) (hs : g ∈ q.queuedGroups s) :
    Inv none { q.setList s ((q.queuedGroups s).erase g) with
      queuedPlayers := Function.update q.queuedPlayers guid none
      groups := Function.update q.groups g none } := by
  have hi := (h.info_eq hs).1
  have honly : ∀ p ∈ (q.info g).players, p = guid := by
    intro p hpi
    by_contra hne
    have := Finset.mem_erase.mpr ⟨hne,hpi⟩
    simp [he] at this
  have hocc : ∀ g', g' ≠ g → occurrences (q.setList s ((q.queuedGroups s).erase g)) g' =
      occurrences q g' := by
    intro g' hg'
    have := occurrences_setList (q := q) (g := g') (s := s) ((q.queuedGroups s).erase g)
    rw [List.count_erase_of_ne hg'] at this
    omega
  have hgone : ∀ s', g ∉ (q.setList s ((q.queuedGroups s).erase g)).queuedGroups s' := by
    intro s' hm
    rw [mem_setList] at hm
    split_ifs at hm with hss
    · exact List.Nodup.not_mem_erase (h.nodup_list s) hm
    · exact hss (slot_unique (h.once_of_mem hs) hm hs)
  have hgroups : ∀ g' j, Function.update q.groups g none g' = some j →
      g' ≠ g ∧ q.groups g' = some j := by
    intro g' j hj
    by_cases hgg : g' = g
    · simp [hgg] at hj
    · exact ⟨hgg,by simpa [hgg] using hj⟩
  have hold : ∀ s' g', g' ∈ (q.setList s ((q.queuedGroups s).erase g)).queuedGroups s' →
      g' ∈ q.queuedGroups s' := by
    intro s' g' hm
    rw [mem_setList] at hm
    split_ifs at hm with hss
    · exact hss ▸ List.mem_of_mem_erase hm
    · exact hm
  refine ⟨⟨fun g' j hj => ?_,fun s' g' hg' => ?_,fun p g' => ?_⟩,fun g' j hj => ?_,
    fun b t g' hg' _ => ?_⟩
  · obtain ⟨hgg,hj⟩ := hgroups g' j hj
    exact (hocc g' hgg).trans (h.once g' j hj)
  · have hgg : g' ≠ g := by rintro rfl; exact hgone s' hg'
    obtain ⟨j,hj,hjp⟩ := h.listed s' g' (hold s' g' hg')
    exact ⟨j,by simpa [hgg] using hj,hjp⟩
  · have hpl : ∀ j, q.groups g = some j → p ∈ j.players → p = guid := by
      intro j hj hpj
      obtain rfl : q.info g = j := by rw [BattlegroundQueue.info,hj,Option.getD_some]
      exact honly p hpj
    by_cases hpg : p = guid
    · subst hpg
      simp only [Function.update_self,reduceCtorEq,false_iff,not_exists,not_and]
      intro j hj hjp
      obtain ⟨hgg,hj⟩ := hgroups g' j hj
      have := (h.players p g').mpr ⟨j,hj,hjp⟩
      simp [hp] at this
      exact hgg this.symm
    · simp only [Function.update_of_ne hpg]
      rw [h.players p g']
      by_cases hgg : g' = g
      · subst hgg
        simp only [Function.update_self,reduceCtorEq,false_and,exists_false,iff_false,not_exists,
          not_and]
        exact fun j hj hpj => hpg (hpl j hj hpj)
      · rw [Function.update_of_ne hgg]
  · exact h.fresh g' j (hgroups g' j hj).2
  · have hgg : g' ≠ g := by rintro rfl; exact hgone _ hg'
    have := h.teams b t g' (hold _ g' hg') (by simp)
    simpa [BattlegroundQueue.info,hgg] using this

theorem removePlayers (n guid : Nat) (h : Inv none q) :
    Inv none (Battlegrounds.removePlayers n guid q) := by
  induction n generalizing guid q with
  | zero => exact h
  | succ n ih =>
    simp only [Battlegrounds.removePlayers]
    split
    · exact h
    · rename_i g hg
      split
      · exact h
      · rename_i s hs
        split_ifs with he hr
        · have := h.leave_last hg he (mem_of_findSlot hs)
          have hupd : Function.update (Function.update q.groups g ((q.groups g).map fun _ =>
              { q.info g with players := (q.info g).players.erase guid })) g none =
              Function.update q.groups g none := Function.update_idem _ _ _
          simpa [BattlegroundQueue.setInfo,BattlegroundQueue.setList,hupd] using this
        · exact ih _ (h.leave hg he)
        · exact h.leave hg he

theorem removePlayer (h : Inv none q) (guid : Nat) :
    Inv none (Battlegrounds.removePlayer guid q) := by
  unfold Battlegrounds.removePlayer
  split
  · exact h
  · exact h.removePlayers _ guid

end Inv

namespace Inv

theorem addGroup (h : Inv none q) (cfg : Settings) (now : Nat) {r : Request}
    (hr : r.players ≠ ∅) (hp : ∀ p ∈ r.players, q.queuedPlayers p = none) :
    Inv none (Battlegrounds.addGroup cfg now r q) := by
  set slot : Slot := (r.bracket,r.index cfg) with hslot
  have hnew : q.groups q.next = none := by
    by_contra hn
    obtain ⟨i,hi⟩ := Option.ne_none_iff_exists'.mp hn
    exact Nat.lt_irrefl _ (h.fresh _ i hi)
  have hnot : ∀ s, q.next ∉ q.queuedGroups s := by
    intro s hs
    obtain ⟨i,hi,-⟩ := h.listed s _ hs
    simp [hnew] at hi
  have hocc : ∀ g, occurrences (q.setList slot (q.queuedGroups slot ++ [q.next])) g =
      occurrences q g+(if g = q.next then 1 else 0) := by
    intro g
    have := occurrences_setList (q := q) (g := g) (s := slot) (q.queuedGroups slot ++ [q.next])
    rw [List.count_append,List.count_singleton] at this
    by_cases hg : g = q.next
    · simp [hg] at this ⊢
      omega
    · simp [hg,Ne.symm hg] at this ⊢
      omega
  have hzero : occurrences q q.next = 0 :=
    Finset.sum_eq_zero (fun s _ => List.count_eq_zero_of_not_mem (hnot s))
  have hgroups : ∀ g, g ≠ q.next →
      (Battlegrounds.addGroup cfg now r q).groups g = q.groups g :=
    fun g hg => by simp [Battlegrounds.addGroup,hg]
  have hself : (Battlegrounds.addGroup cfg now r q).groups q.next = some (r.info now) := by
    simp [Battlegrounds.addGroup]
  have hmem : ∀ s g, g ∈ (Battlegrounds.addGroup cfg now r q).queuedGroups s →
      g ∈ q.queuedGroups s ∨ (g = q.next ∧ s = slot) := by
    intro s g hg
    have hg : g ∈ (q.setList slot (q.queuedGroups slot ++ [q.next])).queuedGroups s := hg
    rw [mem_setList] at hg
    split_ifs at hg with hs
    · rcases List.mem_append.mp hg with hg | hg
      · exact .inl (hs ▸ hg)
      · exact .inr ⟨by simpa using hg,hs⟩
    · exact .inl hg
  have hold : ∀ {s g}, g ∈ q.queuedGroups s → g ≠ q.next := by
    rintro s g hg rfl
    exact hnot s hg
  refine ⟨⟨fun g i hi => ?_,fun s g hg => ?_,fun p g => ?_⟩,fun g i hi => ?_,fun b t g hg _ => ?_⟩
  · refine (hocc g).trans ?_
    by_cases hg : g = q.next
    · simp [hg,hzero]
    · simp only [hg,if_false,Nat.add_zero]
      exact h.once g i ((hgroups g hg).symm.trans hi)
  · rcases hmem s g hg with hg | ⟨rfl,-⟩
    · obtain ⟨i,hi,hip⟩ := h.listed s g hg
      exact ⟨i,(hgroups g (hold hg)).trans hi,hip⟩
    · exact ⟨_,hself,hr⟩
  · by_cases hg : g = q.next
    · subst hg
      rw [hself]
      have hold : q.queuedPlayers p ≠ some q.next := by
        intro hpn
        obtain ⟨i,hi,-⟩ := (h.players p _).mp hpn
        simp [hnew] at hi
      simp only [Battlegrounds.addGroup,setList_next,Option.some.injEq,exists_eq_left']
      by_cases hpr : p ∈ r.players
      · simp [hpr,Request.info]
      · simpa [hpr,Request.info] using hold
    · rw [hgroups g hg,← h.players p g]
      by_cases hpr : p ∈ r.players
      · simp [Battlegrounds.addGroup,hpr,hp p hpr,Ne.symm hg]
      · simp [Battlegrounds.addGroup,hpr]
  · by_cases hg : g = q.next
    · subst hg
      exact Nat.lt_succ_self _
    · exact Nat.lt_succ_of_lt (h.fresh g i ((hgroups g hg).symm.trans hi))
  · rcases hmem _ g hg with hg | ⟨rfl,hs⟩
    · have := h.teams b t g hg nofun
      rw [BattlegroundQueue.info,hgroups g (hold hg)]
      exact this
    · have ht : r.index cfg = .premade t := (congrArg Prod.snd hs).symm
      rw [BattlegroundQueue.info,hself]
      unfold Request.index at ht
      split_ifs at ht
      · cases t <;> simp [GroupType.premade] at ht
      · exact absurd ht (GroupType.normal_ne_premade _ _)
      · exact GroupType.premade_inj.mp ht

theorem fillFreeSlots (h : Inv none q) (cfg : Settings) (now : Nat) (b : Fin 16)
    (bgs : List (Bool × Battleground)) :
    Inv none (bgs.foldl (Battlegrounds.fillFreeSlots cfg now b) q) := by
  induction bgs generalizing q with
  | nil => exact h
  | cons bg bgs ih =>
    refine ih ?_
    unfold Battlegrounds.fillFreeSlots
    split_ifs
    · exact (fillPlayers (h.pools _) cfg bg.2 b).invitePools cfg now _
    · exact h

theorem startPremade (h : Inv none q) (cfg : Settings) (now : Nat) (b : Fin 16)
    (created : Option Nat) (bg : Battleground) (n m : Nat) :
    Inv none (Battlegrounds.startPremade cfg now b created bg n m q).2 := by
  have hp := h.premadeMatch cfg now b n m
  unfold Battlegrounds.startPremade
  split_ifs
  · exact h
  · simp only
    split_ifs
    · cases created with
      | none => exact hp
      | some inst => exact (hp.invitePools cfg now inst).pools _
    · exact hp

theorem checkMatch (h : Inv none q) (cfg : Settings) (b : Fin 16) (bg : Battleground) (n m : Nat) :
    Inv none (Battlegrounds.checkMatch cfg b bg n m q).2 := by
  have hn := h.normalMatch cfg b (!bg.isArena) n m
  unfold Battlegrounds.checkMatch
  simp only
  split_ifs
  · exact hn
  · exact hn.skirmish b n
  · exact (hn.skirmish b n).crossFaction cfg b bg
  · exact hn
  · exact hn.crossFaction cfg b bg

theorem startNormal (h : Inv none q) (cfg : Settings) (now : Nat) (b : Fin 16)
    (created : Option Nat) (bg : Battleground) (n m : Nat) :
    Inv none (Battlegrounds.startNormal cfg now b created bg n m q) := by
  have hm := h.checkMatch cfg b bg n m
  unfold Battlegrounds.startNormal
  generalize Battlegrounds.checkMatch cfg b bg n m q = r at hm ⊢
  obtain ⟨found,q'⟩ := r
  cases found with
  | false => exact hm
  | true =>
    cases created with
    | none => exact hm
    | some inst => exact hm.invitePools cfg now inst

theorem update (h : Inv none q) (cfg : Settings) (now : Nat) (b : Fin 16) (u : UpdateInput) :
    Inv none (battlegroundQueueUpdate cfg now b u q) := by
  have hf := h.fillFreeSlots cfg now b u.freeSlotQueue
  unfold battlegroundQueueUpdate
  split
  · exact h
  · split
    · exact hf
    · rename_i bg _
      split
      · exact hf
      · simp only
        generalize (if bg.isArena then u.arenaType else bg.maxPlayersPerTeam) = m
        generalize (if bg.isArena then (if cfg.arenaTesting then 1 else u.arenaType)
            else if cfg.testing then 1 else bg.minPlayersPerTeam) = n
        have hs := startPremade (hf.pools fun _ => .init) cfg now b u.createdPremade bg n m
        split_ifs
        · exact hs
        · exact hs.startNormal cfg now b u.created bg n m
        · exact hs.ratedMatch cfg now b u.created u.arenaRating
        · exact hs

end Inv

/-- The operations of the queue, each at its own time and under its own settings. -/
inductive Op where
  | addGroup (cfg : Settings) (now : Nat) (r : Request)
  | removePlayer (guid : Nat)
  | initPools
  | checkPremadeMatch (cfg : Settings) (now : Nat) (b : Fin 16) (min max : Nat)
  | checkNormalMatch (cfg : Settings) (b : Fin 16) (isBg : Bool) (min max : Nat)
  | checkSkirmish (b : Fin 16) (min : Nat)
  | checkCrossFaction (cfg : Settings) (b : Fin 16) (bg : Battleground)
  | ratedMatch (cfg : Settings) (now : Nat) (b : Fin 16) (created : Option Nat) (rating : Nat)
  | fillPlayers (cfg : Settings) (bg : Battleground) (b : Fin 16)
  | fillXPlayers (cfg : Settings) (bg : Battleground) (b : Fin 16) (start : Bool)
  | invitePools (cfg : Settings) (now inst : Nat)
  | update (cfg : Settings) (now : Nat) (b : Fin 16) (u : UpdateInput)

def step (q : BattlegroundQueue) : Op → BattlegroundQueue
  | .addGroup cfg now r => addGroup cfg now r q
  | .removePlayer guid => removePlayer guid q
  | .initPools => q.initPools
  | .checkPremadeMatch cfg now b min max => (checkPremadeMatch cfg now b min max q).2
  | .checkNormalMatch cfg b isBg min max => (checkNormalMatch cfg b isBg min max q).2
  | .checkSkirmish b min => (checkSkirmishForSameFaction b min q).2
  | .checkCrossFaction cfg b bg => (checkCrossFactionMatch q cfg b bg).2
  | .ratedMatch cfg now b created rating => ratedMatch cfg now b created rating q
  | .fillPlayers cfg bg b => fillPlayersToBG q cfg bg b
  | .fillXPlayers cfg bg b start => (fillXPlayersToBG q cfg b bg start).2
  | .invitePools cfg now inst => invitePools cfg now inst q
  | .update cfg now b u => battlegroundQueueUpdate cfg now b u q

def Joinable (q : BattlegroundQueue) : Op → Prop
  | .addGroup _ _ r => r.players ≠ ∅ ∧ ∀ p ∈ r.players, q.queuedPlayers p = none
  | _ => True

theorem Inv.step (h : Inv none q) (op : Op) (ho : Joinable q op) : Inv none (step q op) := by
  cases op with
  | addGroup cfg now r => exact h.addGroup cfg now ho.1 ho.2
  | removePlayer guid => exact h.removePlayer guid
  | initPools => exact h.pools _
  | checkPremadeMatch cfg now b min max => exact h.premadeMatch cfg now b min max
  | checkNormalMatch cfg b isBg min max => exact h.normalMatch cfg b isBg min max
  | checkSkirmish b min => exact h.skirmish b min
  | checkCrossFaction cfg b bg => exact h.crossFaction cfg b bg
  | ratedMatch cfg now b created rating => exact h.ratedMatch cfg now b created rating
  | fillPlayers cfg bg b => exact h.fillPlayers cfg bg b
  | fillXPlayers cfg bg b start => exact h.fillX cfg b bg start
  | invitePools cfg now inst => exact h.invitePools cfg now inst
  | update cfg now b u => exact h.update cfg now b u

/-- The queue is partitioned after every run of its operations. -/
theorem run_partition (ops : List Op)
    (h : Run.Guarded step Joinable .empty ops) : Partition (Run.exec step .empty ops) :=
  (h.inv (fun _ op hi ho => hi.step op ho) inv_empty).toPartition

def exampleSettings : Settings := ⟨false,false,false,0,0,1800000,150,600000,40000⟩

def exampleBracket : Fin 16 := 3

/-- Two rated teams of one faction are matched, so that the second changes sides, and a
member leaves. -/
def exampleOps : List Op :=
  [.addGroup exampleSettings 1000 ⟨{1,2},.alliance,0,exampleBracket,2,true,false,1500,1500,7⟩,
   .addGroup exampleSettings 2000 ⟨{3,4},.alliance,0,exampleBracket,2,true,false,1520,1520,8⟩,
   .ratedMatch exampleSettings 3000 exampleBracket (some 55) 0,
   .removePlayer 3]

theorem run_partition_example :
    Run.Guarded step Joinable .empty exampleOps ∧
    (Run.exec step .empty exampleOps).queuedGroups (exampleBracket,.premadeHorde) = [1] ∧
    Partition (Run.exec step .empty exampleOps) := by
  have h : Run.Guarded step Joinable .empty exampleOps :=
    ⟨⟨by decide,by decide⟩,⟨by decide,by decide⟩,trivial,trivial,trivial⟩
  exact ⟨h,by decide,run_partition exampleOps h⟩

end TrinityCore.Battlegrounds
