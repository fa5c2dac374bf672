import TrinityCore.Battlegrounds.Counters
import TrinityCore.Battlegrounds.Waiting

set_option autoImplicit false

namespace TrinityCore.Battlegrounds

variable {q : BattlegroundQueue} {gs rest : List Nat} {pool : SelectionPool} {g free desired : Nat}

section Normal

variable {minPlayers maxPlayers : Nat}

theorem Picked.selectTeam (h : Picked q gs rest maxPlayers pool) :
    Picked q gs (Battlegrounds.selectTeam q minPlayers maxPlayers rest pool).1.tail maxPlayers
      (Battlegrounds.selectTeam q minPlayers maxPlayers rest pool).2 := by
  induction rest generalizing pool with
  | nil => exact h
  | cons g rest ih =>
    simp only [Battlegrounds.selectTeam]
    split_ifs
    · exact ih h.skip
    · exact h.addGroup le_rfl
    · exact ih (h.addGroup le_rfl)

theorem Picked.addUninvited (h : Picked q gs rest free pool) (hle : desired ≤ free) :
    ∃ rest', Picked q gs rest' free (pool.addUninvited q desired rest) := by
  induction rest generalizing pool with
  | nil => exact ⟨[],h⟩
  | cons g rest ih =>
    simp only [SelectionPool.addUninvited]
    split_ifs
    · exact ih h.skip
    · exact ih (h.addGroup hle)
    · exact ⟨rest,h.addGroup hle⟩

/-- A pool of a normal match: groups of the queue in its order, enough players and not too many. -/
structure NormalPool (q : BattlegroundQueue) (gs : List Nat) (minPlayers maxPlayers : Nat)
    (pool : SelectionPool) : Prop extends Selected q gs maxPlayers pool where
  ordered : pool.selectedGroups.Sublist gs
  enough : minPlayers ≤ pool.playerCount

theorem Picked.normalPool (h : Picked q gs rest maxPlayers pool) (hnd : gs.Nodup)
    (henough : minPlayers ≤ pool.playerCount) : NormalPool q gs minPlayers maxPlayers pool := by
  refine ⟨h.selected hnd,?_,henough⟩
  obtain ⟨taken,rfl,hsub⟩ := h.taken
  exact hsub.trans (List.sublist_append_left _ _)

variable {cfg : Settings} {b : Fin 16} {isBattleground : Bool}

theorem checkNormalMatch_picked (cfg : Settings) (b : Fin 16) (isBattleground : Bool)
    (minPlayers maxPlayers : Nat) (hinit : ∀ t, q.selectionPools t = .init) (t : Team) :
    ∃ rest, Picked q (q.queuedGroups (b,.normal t)) rest maxPlayers
      ((checkNormalMatch cfg b isBattleground minPlayers maxPlayers q).2.selectionPools t) := by
  have hselect : ∀ t, Picked q (q.queuedGroups (b,.normal t))
      (selectTeam q minPlayers maxPlayers (q.queuedGroups (b,.normal t)) (q.selectionPools t)).1.tail
      maxPlayers
      (selectTeam q minPlayers maxPlayers (q.queuedGroups (b,.normal t)) (q.selectionPools t)).2 := by
    intro t
    rw [hinit t]
    exact picked_init.selectTeam
  have hali := hselect .alliance
  have hhorde := hselect .horde
  simp only [GroupType.normal] at hali hhorde
  unfold checkNormalMatch
  generalize selectTeam q minPlayers maxPlayers (q.queuedGroups (b,.normalAlliance))
    (q.selectionPools .alliance) = r at hali ⊢
  generalize selectTeam q minPlayers maxPlayers (q.queuedGroups (b,.normalHorde))
    (q.selectionPools .horde) = r' at hhorde ⊢
  obtain ⟨aliRest,aliPool⟩ := r
  obtain ⟨hordeRest,hordePool⟩ := r'
  -- the team with fewer players gets no more than the other one has
  have hpools : ∀ (balanced : Prop) [Decidable balanced], ∃ aliPool' hordePool',
      (if balanced then
        if hordePool.playerCount < aliPool.playerCount then
          (aliPool,hordePool.addUninvited q aliPool.playerCount hordeRest.tail)
        else (aliPool.addUninvited q hordePool.playerCount aliRest.tail,hordePool)
      else (aliPool,hordePool)) = (aliPool',hordePool') ∧
      (∃ rest, Picked q (q.queuedGroups (b,.normalAlliance)) rest maxPlayers aliPool') ∧
      ∃ rest, Picked q (q.queuedGroups (b,.normalHorde)) rest maxPlayers hordePool' := by
    intro balanced _
    split_ifs
    · exact ⟨_,_,rfl,⟨_,hali⟩,hhorde.addUninvited hali.room⟩
    · exact ⟨_,_,rfl,hali.addUninvited hhorde.room,_,hhorde⟩
    · exact ⟨_,_,rfl,⟨_,hali⟩,_,hhorde⟩
  obtain ⟨aliPool',hordePool',heq,hali',hhorde'⟩ := hpools (cfg.invitationType ≠ 0 ∧
    hordePool.playerCount ≥ minPlayers ∧ aliPool.playerCount ≥ minPlayers)
  simp only [heq]
  have hboth : ∀ t, ∃ rest, Picked q (q.queuedGroups (b,.normal t)) rest maxPlayers
      (((q.setPool .alliance aliPool').setPool .horde hordePool').selectionPools t) := by
    intro t
    cases t
    · exact hali'
    · exact hhorde'
  split_ifs <;> exact hboth t

theorem checkNormalMatch_found (htesting : cfg.testing = false)
    (hfound : (checkNormalMatch cfg b isBattleground minPlayers maxPlayers q).1 = true) :
    (∀ t, minPlayers ≤
      playerCount (checkNormalMatch cfg b isBattleground minPlayers maxPlayers q).2 t) ∧
    (cfg.invitationType ≠ 0 →
      ((playerCount (checkNormalMatch cfg b isBattleground minPlayers maxPlayers q).2 .horde : Int)-
        playerCount (checkNormalMatch cfg b isBattleground minPlayers maxPlayers q).2
          .alliance).natAbs ≤ 2) := by
  unfold checkNormalMatch at hfound ⊢
  generalize selectTeam q minPlayers maxPlayers (q.queuedGroups (b,.normalAlliance))
    (q.selectionPools .alliance) = r at hfound ⊢
  generalize selectTeam q minPlayers maxPlayers (q.queuedGroups (b,.normalHorde))
    (q.selectionPools .horde) = r' at hfound ⊢
  obtain ⟨aliRest,aliPool⟩ := r
  obtain ⟨hordeRest,hordePool⟩ := r'
  simp only at hfound ⊢
  set balanced : Prop := cfg.invitationType ≠ 0 ∧ hordePool.playerCount ≥ minPlayers ∧
    aliPool.playerCount ≥ minPlayers with hbalanced
  generalize hpools : (if balanced then
      if hordePool.playerCount < aliPool.playerCount then
        (aliPool,hordePool.addUninvited q aliPool.playerCount hordeRest.tail)
      else (aliPool.addUninvited q hordePool.playerCount aliRest.tail,hordePool)
    else (aliPool,hordePool)) = pools at hfound ⊢
  obtain ⟨aliPool',hordePool'⟩ := pools
  have hali : playerCount ((q.setPool .alliance aliPool').setPool .horde hordePool') .alliance =
      aliPool'.playerCount := rfl
  have hhorde : playerCount ((q.setPool .alliance aliPool').setPool .horde hordePool') .horde =
      hordePool'.playerCount := rfl
  simp only at hfound ⊢
  by_cases hdiff : balanced ∧ ((hordePool'.playerCount : Int)-aliPool'.playerCount).natAbs > 2
  · rw [if_pos hdiff] at hfound
    cases hfound
  · rw [if_neg hdiff,if_neg (by simp [htesting])] at hfound ⊢
    obtain ⟨hali',hhorde'⟩ := of_decide_eq_true hfound
    refine ⟨fun t => ?_,fun htype => ?_⟩
    · cases t
      · exact hali'
      · exact hhorde'
    · rw [hali,hhorde]
      by_cases hb : balanced
      · exact Nat.le_of_not_lt fun hgt => hdiff ⟨hb,hgt⟩
      · -- without the third scan one of the teams has too few players
        rw [if_neg hb,Prod.mk.injEq] at hpools
        obtain ⟨rfl,rfl⟩ := hpools
        exact absurd ⟨htype,hhorde',hali'⟩ hb

/-- Whenever a normal match is found, both pools are right and almost even. -/
theorem checkNormalMatch_selects (hinit : ∀ t, q.selectionPools t = .init)
    (hnd : ∀ t, (q.queuedGroups (b,.normal t)).Nodup) (htesting : cfg.testing = false)
    (hfound : (checkNormalMatch cfg b isBattleground minPlayers maxPlayers q).1 = true) :
    (∀ t, NormalPool q (q.queuedGroups (b,.normal t)) minPlayers maxPlayers
      ((checkNormalMatch cfg b isBattleground minPlayers maxPlayers q).2.selectionPools t)) ∧
    (cfg.invitationType ≠ 0 →
      ((playerCount (checkNormalMatch cfg b isBattleground minPlayers maxPlayers q).2 .horde : Int)-
        playerCount (checkNormalMatch cfg b isBattleground minPlayers maxPlayers q).2
          .alliance).natAbs ≤ 2) := by
  obtain ⟨henough,hclose⟩ := checkNormalMatch_found htesting hfound
  refine ⟨fun t => ?_,hclose⟩
  obtain ⟨rest,hpicked⟩ :=
    checkNormalMatch_picked cfg b isBattleground minPlayers maxPlayers hinit t
  exact hpicked.normalPool (hnd t) (henough t)

def fiveSolos : BattlegroundQueue := solos [.alliance,.horde,.alliance,.horde,.alliance]

theorem checkNormalMatch_selects_solos :
    (∀ t, NormalPool fiveSolos (fiveSolos.queuedGroups (exampleBracket,.normal t)) 2 5
      ((checkNormalMatch tolerantSettings exampleBracket true 2 5 fiveSolos).2.selectionPools t)) ∧
    (tolerantSettings.invitationType ≠ 0 →
      ((playerCount (checkNormalMatch tolerantSettings exampleBracket true 2 5 fiveSolos).2
          .horde : Int)-
        playerCount (checkNormalMatch tolerantSettings exampleBracket true 2 5 fiveSolos).2
          .alliance).natAbs ≤ 2) :=
  checkNormalMatch_selects (fun t => rfl) (fun t => by cases t <;> decide) rfl (by decide)

end Normal

section Untouched

variable {cfg : Settings} {now : Nat} {b : Fin 16}

/-- A group that is neither in a normal list of a bracket nor in its mixed list. -/
def Apart (q : BattlegroundQueue) (b : Fin 16) (g : Nat) : Prop :=
  (∀ t, g ∉ q.queuedGroups (b,.normal t)) ∧ g ∉ q.queuedGroups (b,.mixed)

structure Untouched (b : Fin 16) (q q' : BattlegroundQueue) : Prop where
  lists : q'.queuedGroups = q.queuedGroups
  info : ∀ g, Apart q b g → q'.info g = q.info g

theorem Untouched.refl (q : BattlegroundQueue) : Untouched b q q := ⟨rfl,fun _ _ => rfl⟩

theorem Untouched.trans {q' q'' : BattlegroundQueue} (h : Untouched b q q')
    (h' : Untouched b q' q'') : Untouched b q q'' := by
  refine ⟨h'.lists.trans h.lists,fun g hg => (h'.info g ?_).trans (h.info g hg)⟩
  unfold Apart
  rw [h.lists]
  exact hg

theorem info_inviteGroups (inst : Nat) (gs : List Nat) (hg : g ∉ gs) :
    (inviteGroups cfg now inst gs q).info g = q.info g := by
  unfold inviteGroups
  induction gs generalizing q with
  | nil => rfl
  | cons g' gs ih =>
    have hne : g ≠ g' := fun heq => hg (heq ▸ List.mem_cons_self)
    rw [List.foldl_cons,ih fun hin => hg (List.mem_cons_of_mem _ hin)]
    unfold inviteGroupToBG
    simp only
    split_ifs <;> exact BattlegroundQueue.info_setInfo_ne _ hne

theorem inviteGroups_pools (inst : Nat) (gs : List Nat) :
    (inviteGroups cfg now inst gs q).selectionPools = q.selectionPools := by
  unfold inviteGroups
  induction gs generalizing q with
  | nil => rfl
  | cons g' gs ih =>
    rw [List.foldl_cons,ih]
    unfold inviteGroupToBG
    simp only
    split_ifs <;> rfl

theorem info_invitePools (inst : Nat) (hg : ∀ t, g ∉ (q.selectionPools t).selectedGroups) :
    (invitePools cfg now inst q).info g = q.info g := by
  unfold invitePools
  rw [info_inviteGroups inst _ (by rw [inviteGroups_pools]; exact hg .horde)]
  exact info_inviteGroups inst _ (hg .alliance)

theorem foldl_mixedStep (minPlayers : Nat) (room : Team → Nat) (gs : List Nat) (s : Counting) :
    (gs.foldl (mixedStep minPlayers room) s).queue.queuedGroups = s.queue.queuedGroups ∧
    (∀ g ∉ gs, (gs.foldl (mixedStep minPlayers room) s).queue.info g = s.queue.info g) ∧
    ∀ t, ∀ g ∈ ((gs.foldl (mixedStep minPlayers room) s).queue.selectionPools t).selectedGroups,
      g ∈ (s.queue.selectionPools t).selectedGroups ∨ g ∈ gs := by
  induction gs generalizing s with
  | nil => exact ⟨rfl,fun _ _ => rfl,fun _ _ hg => .inl hg⟩
  | cons g' gs ih =>
    obtain ⟨hlists,hinfo,hpools⟩ := ih (mixedStep minPlayers room s g')
    refine ⟨?_,fun g hg => ?_,fun t g hg => ?_⟩
    · rw [List.foldl_cons,hlists]
      unfold mixedStep
      split_ifs <;> rfl
    · have hne : g ≠ g' := fun heq => hg (heq ▸ List.mem_cons_self)
      rw [List.foldl_cons,hinfo g fun hin => hg (List.mem_cons_of_mem _ hin)]
      exact (mixedStep_frame minPlayers room s g' g).2.2 hne
    · rcases hpools t g hg with hin | hin
      · by_cases hskip : s.skips minPlayers g'
        · have hstep : mixedStep minPlayers room s g' = s := if_pos hskip
          rw [hstep] at hin
          exact .inl hin
        · rw [(mixedStep_offers hskip rfl).2] at hin
          by_cases ht : t = s.chosen g'
          · subst ht
            rw [Function.update_self] at hin
            rcases addGroup_selected (q := s.queue) (g := g')
              (s.queue.selectionPools (s.chosen g')) (room (s.chosen g')) with heq | heq
            · rw [heq] at hin
              rcases List.mem_append.mp hin with hin | hin
              · exact .inl hin
              · exact .inr (List.mem_singleton.mp hin ▸ List.mem_cons_self)
            · exact .inl (heq ▸ hin)
          · rw [Function.update_of_ne ht] at hin
            exact .inl hin
      · exact .inr (List.mem_cons_of_mem _ hin)

theorem fillPlayers_untouched (cfg : Settings) (b : Fin 16) (bg : Battleground) :
    Untouched b q (fillPlayersToBG q.initPools cfg bg b) ∧
    ∀ g, Apart q b g →
      ∀ t, g ∉ ((fillPlayersToBG q.initPools cfg bg b).selectionPools t).selectedGroups := by
  have hregular : Untouched b q (fillRegular q.initPools cfg bg b) ∧ ∀ g, Apart q b g →
      ∀ t, g ∉ ((fillRegular q.initPools cfg bg b).selectionPools t).selectedGroups := by
    refine ⟨⟨rfl,fun _ _ => rfl⟩,fun g hg t hin => ?_⟩
    obtain ⟨s,-,hinv,hpools⟩ := fillRegular_ends (q := q.initPools) cfg bg b fun _ => rfl
    obtain ⟨taken,hqueue,hsub⟩ := (hinv t).taken
    rw [hpools t] at hin
    refine hg.1 t ?_
    have hmem : g ∈ q.initPools.queuedGroups (b,.normal t) := by
      rw [hqueue]
      exact List.mem_append_left _ (hsub.subset hin)
    exact hmem
  unfold fillPlayersToBG
  split_ifs
  · exact hregular
  · by_cases hbuilds : (fillXPlayersToBG q.initPools cfg b bg false).1 = true
    · have hfill := fillX_eq hbuilds
      generalize fillXPlayersToBG q.initPools cfg b bg false = r at hbuilds hfill ⊢
      obtain ⟨done,q'⟩ := r
      obtain rfl : done = true := hbuilds
      obtain ⟨hlists,hinfo,hpools⟩ := foldl_mixedStep bg.minPlayersPerTeam
        (slots bg false) (dealOrder q.initPools b) (counting q.initPools bg b false)
      simp only [if_true]
      simp only at hfill
      rw [← hfill] at hlists hinfo hpools
      have hout : ∀ g, Apart q b g → g ∉ dealOrder q.initPools b :=
        fun g hg hin => hg.2 (mem_bySizeDescending.mp hin)
      refine ⟨⟨hlists,fun g hg => hinfo g (hout g hg)⟩,fun g hg t hin => ?_⟩
      rcases hpools t g hin with hin | hin
      · rw [(counting_pools _ _ _ _ _).1] at hin
        cases hin
      · exact hout g hg hin
    · rw [fillX_none hbuilds]
      exact hregular

theorem fillFreeSlots_untouched (cfg : Settings) (now : Nat) (b : Fin 16)
    (bgs : List (Bool × Battleground)) :
    Untouched b q (bgs.foldl (fillFreeSlots cfg now b) q) := by
  induction bgs generalizing q with
  | nil => exact .refl q
  | cons bg bgs ih =>
    refine Untouched.trans ?_ ih
    unfold fillFreeSlots
    split_ifs
    · obtain ⟨huntouched,hpools⟩ := fillPlayers_untouched (q := q) cfg b bg.2
      refine ⟨(invitePools_queuedGroups cfg now _).trans huntouched.lists,fun g hg => ?_⟩
      exact (info_invitePools _ (hpools g hg)).trans (huntouched.info g hg)
    · exact .refl q

end Untouched

section Rated

variable {cfg : Settings} {now r a h inst : Nat} {b : Fin 16} {u : UpdateInput}

def ratedQueue (cfg : Settings) (now : Nat) (b : Fin 16) (u : UpdateInput)
    (q : BattlegroundQueue) : BattlegroundQueue :=
  (u.freeSlotQueue.foldl (fillFreeSlots cfg now b) q).initPools

structure ForRatedArena (u : UpdateInput) : Prop where
  arena : ∃ bg, u.template = some bg ∧ bg.isArena = true
  bracket : u.bracketEntry = true
  isRated : u.isRated = true
  created : u.created.isSome

def wantedRating (b : Fin 16) (u : UpdateInput) (q : BattlegroundQueue) : Option Nat :=
  if u.arenaRating = 0 then frontRating b q else some u.arenaRating

structure RatedStart (cfg : Settings) (now : Nat) (b : Fin 16) (u : UpdateInput)
    (q : BattlegroundQueue) (r a h : Nat) : Prop extends ForRatedArena u where
  rating : wantedRating b u (ratedQueue cfg now b u q) = some r
  teams : findTeams cfg now b (ratedQueue cfg now b u q) r = some (a,h)

theorem findTeams_nonempty (h' : findTeams cfg now b q r = some (a,h)) :
    ¬ (GroupType.all.all fun t => (q.queuedGroups (b,t)).isEmpty) = true := by
  intro hempty
  rw [List.all_eq_true] at hempty
  have hnil : ∀ t : Team, q.queuedGroups (b,.premade t) = [] := by
    intro t
    refine List.isEmpty_iff.mp (hempty _ ?_)
    cases t <;> decide
  have hali : q.queuedGroups (b,.premadeAlliance) = [] := hnil .alliance
  have hhorde : q.queuedGroups (b,.premadeHorde) = [] := hnil .horde
  simp [findTeams,hali,hhorde] at h'

theorem RatedStart.update (h' : RatedStart cfg now b u q r a h) :
    ∃ inst, u.created = some inst ∧ battlegroundQueueUpdate cfg now b u q =
      startArena cfg now b inst a h (ratedQueue cfg now b u q) := by
  obtain ⟨bg,htemplate,harena⟩ := h'.arena
  obtain ⟨inst,hcreated⟩ := Option.isSome_iff_exists.mp h'.created
  have hnonempty := findTeams_nonempty h'.teams
  have hlists : (ratedQueue cfg now b u q).queuedGroups = q.queuedGroups :=
    (fillFreeSlots_untouched cfg now b u.freeSlotQueue).lists
  rw [hlists] at hnonempty
  refine ⟨inst,hcreated,?_⟩
  have hmatch : Battlegrounds.ratedMatch cfg now b u.created u.arenaRating
      (ratedQueue cfg now b u q) = startArena cfg now b inst a h (ratedQueue cfg now b u q) := by
    unfold Battlegrounds.ratedMatch
    have hrating := h'.rating
    unfold wantedRating at hrating
    rw [hrating,hcreated]
    simp only [h'.teams]
  unfold battlegroundQueueUpdate
  rw [if_neg hnonempty,htemplate]
  simp only
  rw [if_neg (by simp [h'.bracket])]
  unfold startPremade
  simp only [harena,if_true,h'.isRated]
  exact hmatch

theorem mem_moveGroup {t t1 t2 : Team} (hne : t1 ≠ t2) (hg : g ∈ q.queuedGroups (b,.premade t)) :
    ∃ t', g ∈ (q.moveGroup a (b,.premade t1) (b,.premade t2)).queuedGroups (b,.premade t') := by
  have hslots : ((b,.premade t1) : Slot) ≠ (b,.premade t2) := by simp [hne]
  have hsource : (q.setList (b,.premade t2) (a :: q.queuedGroups (b,.premade t2))).queuedGroups
      (b,.premade t1) = q.queuedGroups (b,.premade t1) := by
    simp [BattlegroundQueue.setList,hslots]
  unfold BattlegroundQueue.moveGroup
  by_cases hga : g = a
  · refine ⟨t2,?_⟩
    rw [mem_setList,if_neg hslots.symm,mem_setList,if_pos rfl]
    exact hga ▸ List.mem_cons_self
  · refine ⟨t,?_⟩
    rw [mem_setList]
    split_ifs with hs
    · rw [hsource,← hs]
      exact (List.mem_erase_of_ne hga).mpr hg
    · rw [mem_setList]
      split_ifs with hs'
      · exact List.mem_cons_of_mem _ (hs' ▸ hg)
      · exact hg

theorem mem_startArena {t : Team} (hg : g ∈ q.queuedGroups (b,.premade t)) :
    ∃ t', g ∈ (startArena cfg now b inst a h q).queuedGroups (b,.premade t') := by
  have hset : g ∈ (setOpponents q a h).queuedGroups (b,.premade t) := hg
  have hali : ∀ q : BattlegroundQueue, (∃ t, g ∈ q.queuedGroups (b,.premade t)) →
      ∃ t, g ∈ (if (q.info a).team ≠ .alliance then
        q.moveGroup a (b,.premadeHorde) (b,.premadeAlliance) else q).queuedGroups (b,.premade t) := by
    rintro q ⟨t,hg⟩
    split_ifs
    · exact mem_moveGroup (nofun : Team.horde ≠ .alliance) hg
    · exact ⟨t,hg⟩
  have hhorde : ∀ q : BattlegroundQueue, (∃ t, g ∈ q.queuedGroups (b,.premade t)) →
      ∃ t, g ∈ (if (q.info h).team ≠ .horde then
        q.moveGroup h (b,.premadeAlliance) (b,.premadeHorde) else q).queuedGroups (b,.premade t) := by
    rintro q ⟨t,hg⟩
    split_ifs
    · exact mem_moveGroup (nofun : Team.alliance ≠ .horde) hg
    · exact ⟨t,hg⟩
  unfold startArena
  simp only [inviteGroupToBG_queuedGroups]
  exact hhorde _ (hali _ ⟨t,hset⟩)

theorem info_inviteGroupToBG {side : Team} (hg : (q.groups g).isSome) :
    ((inviteGroupToBG cfg now inst side g q).info g).team = side ∧
    (q.invited g = false →
      ((inviteGroupToBG cfg now inst side g q).info g).isInvitedToBGInstanceGUID = inst) := by
  obtain ⟨i,hi⟩ := Option.isSome_iff_exists.mp hg
  unfold inviteGroupToBG
  simp only
  split_ifs with hinvited
  · rw [BattlegroundQueue.info_setInfo_self hi]
    exact ⟨rfl,fun _ => rfl⟩
  · rw [BattlegroundQueue.info_setInfo_self hi]
    exact ⟨rfl,fun hfree => absurd (by simpa [BattlegroundQueue.invited] using hfree) hinvited⟩

theorem info_inviteGroupToBG_ne {side : Team} (hg : g ≠ a) :
    (inviteGroupToBG cfg now inst side a q).info g = q.info g := by
  unfold inviteGroupToBG
  simp only
  split_ifs <;> exact BattlegroundQueue.info_setInfo_ne _ hg

theorem isSome_setInfo (i : GroupQueueInfo) (x : Nat) :
    ((q.setInfo g i).groups x).isSome = (q.groups x).isSome := by
  unfold BattlegroundQueue.setInfo
  by_cases hx : x = g
  · simp [hx]
  · simp [hx]

theorem invited_setInfo {i : GroupQueueInfo}
    (hi : i.isInvitedToBGInstanceGUID = (q.info g).isInvitedToBGInstanceGUID) (x : Nat) :
    (q.setInfo g i).invited x = q.invited x := by
  unfold BattlegroundQueue.invited
  by_cases hx : x = g
  · subst hx
    cases hg : q.groups x with
    | none => simp [BattlegroundQueue.info,BattlegroundQueue.setInfo,hg]
    | some _ => rw [BattlegroundQueue.info_setInfo_self hg,hi]
  · rw [BattlegroundQueue.info_setInfo_ne _ hx]

/-- The groups before the invitation differ from those before the start only in what they know
of their opponents. -/
theorem setOpponents_spec (x : Nat) :
    ((setOpponents q a h).groups x).isSome = (q.groups x).isSome ∧
    (setOpponents q a h).invited x = q.invited x := by
  set ia : GroupQueueInfo := { q.info a with
    opponentsTeamRating := (q.info h).arenaTeamRating
    opponentsMatchmakerRating := (q.info h).arenaMatchmakerRating } with hia
  set ih : GroupQueueInfo := { (q.setInfo a ia).info h with
    opponentsTeamRating := (q.info a).arenaTeamRating
    opponentsMatchmakerRating := (q.info a).arenaMatchmakerRating } with hih
  have heq : setOpponents q a h = (q.setInfo a ia).setInfo h ih := rfl
  have hfirst : (q.setInfo a ia).invited x = q.invited x := invited_setInfo (by rw [hia]) x
  have hsecond : ((q.setInfo a ia).setInfo h ih).invited x = (q.setInfo a ia).invited x :=
    invited_setInfo (by rw [hih]) x
  rw [heq]
  exact ⟨(isSome_setInfo _ x).trans (isSome_setInfo _ x),hsecond.trans hfirst⟩

def switched (b : Fin 16) (a h : Nat) (q : BattlegroundQueue) : BattlegroundQueue :=
  let q := setOpponents q a h
  let q := if (q.info a).team ≠ .alliance then
      q.moveGroup a (b,.premadeHorde) (b,.premadeAlliance)
    else q
  if (q.info h).team ≠ .horde then
    q.moveGroup h (b,.premadeAlliance) (b,.premadeHorde)
  else q

theorem startArena_eq : startArena cfg now b inst a h q =
    inviteGroupToBG cfg now inst .horde h (inviteGroupToBG cfg now inst .alliance a
      (switched b a h q)) := rfl

theorem switched_groups : (switched b a h q).groups = (setOpponents q a h).groups := by
  unfold switched
  simp only
  split_ifs <;> rfl

theorem startArena_sides (cfg : Settings) (now inst : Nat) (b : Fin 16)
    (ha : (q.groups a).isSome) (hh : (q.groups h).isSome) (hne : a ≠ h)
    (hfree : q.invited a = false) (hfree' : q.invited h = false) :
    (((startArena cfg now b inst a h q).info a).team = .alliance ∧
      ((startArena cfg now b inst a h q).info h).team = .horde) ∧
    ((startArena cfg now b inst a h q).info a).isInvitedToBGInstanceGUID = inst ∧
      ((startArena cfg now b inst a h q).info h).isInvitedToBGInstanceGUID = inst := by
  have hspec : ∀ x, ((switched b a h q).groups x).isSome = (q.groups x).isSome ∧
      (switched b a h q).invited x = q.invited x := by
    intro x
    unfold BattlegroundQueue.invited BattlegroundQueue.info
    rw [switched_groups]
    exact setOpponents_spec x
  set q1 := inviteGroupToBG cfg now inst .alliance a (switched b a h q) with hq1
  have hali : (q1.info a).team = .alliance ∧
      ((switched b a h q).invited a = false → (q1.info a).isInvitedToBGInstanceGUID = inst) :=
    info_inviteGroupToBG ((hspec a).1.trans ha)
  have hother : q1.info h = (switched b a h q).info h := info_inviteGroupToBG_ne hne.symm
  have hsome : (q1.groups h).isSome := by
    have hset : (q1.groups h).isSome = ((switched b a h q).groups h).isSome := by
      rw [hq1]
      unfold inviteGroupToBG
      simp only
      split_ifs <;> exact isSome_setInfo _ h
    exact hset.trans ((hspec h).1.trans hh)
  have hhorde : ((inviteGroupToBG cfg now inst .horde h q1).info h).team = .horde ∧
      (q1.invited h = false →
        ((inviteGroupToBG cfg now inst .horde h q1).info h).isInvitedToBGInstanceGUID = inst) :=
    info_inviteGroupToBG hsome
  have hinvited : q1.invited h = false := by
    unfold BattlegroundQueue.invited
    rw [hother]
    exact (hspec h).2.trans hfree'
  rw [startArena_eq,info_inviteGroupToBG_ne hne]
  exact ⟨⟨hali.1,hhorde.1⟩,hali.2 ((hspec a).2.trans hfree),hhorde.2 hinvited⟩

structure Paired (cfg : Settings) (now : Nat) (b : Fin 16) (u : UpdateInput) (r a h : Nat)
    (q q' : BattlegroundQueue) : Prop where
  different : a ≠ h
  uninvited : q.invited a = false ∧ q.invited h = false
  teams : (q.info a).arenaTeamId ≠ (q.info h).arenaTeamId
  rated : rated cfg now q r a = true ∧ rated cfg now q r h = true
  invited : u.created = some (q'.info a).isInvitedToBGInstanceGUID ∧
    u.created = some (q'.info h).isInvitedToBGInstanceGUID
  sides : (q'.info a).team = .alliance ∧ (q'.info h).team = .horde
  lists : ∀ s, (a ∈ q'.queuedGroups s ↔ s = (b,.premadeAlliance)) ∧
    (h ∈ q'.queuedGroups s ↔ s = (b,.premadeHorde))

def PairsTeams (cfg : Settings) (now : Nat) (b : Fin 16) (u : UpdateInput)
    (q : BattlegroundQueue) : Prop :=
  ∀ r a h, RatedStart cfg now b u q r a h →
    Paired cfg now b u r a h q (battlegroundQueueUpdate cfg now b u q)

theorem Inv.apart (hinv : Inv none q) {t : Team} (hg : g ∈ q.queuedGroups (b,.premade t)) :
    Apart q b g := by
  have hslot : ∀ ty, g ∈ q.queuedGroups (b,ty) → ty = .premade t := by
    intro ty hin
    exact congrArg Prod.snd (slot_unique (hinv.once_of_mem hg) hin hg)
  refine ⟨fun t' hin => GroupType.normal_ne_premade t' t (hslot _ hin),fun hin => ?_⟩
  have hmixed := hslot _ hin
  cases t <;> cases hmixed

theorem ratedQueue_spec (cfg : Settings) (now : Nat) (b : Fin 16) (hinv : Inv none q)
    (u : UpdateInput) :
    (ratedQueue cfg now b u q).queuedGroups = q.queuedGroups ∧
    (∀ t, ∀ g ∈ q.queuedGroups (b,.premade t),
      (ratedQueue cfg now b u q).info g = q.info g) ∧ Inv none (ratedQueue cfg now b u q) := by
  have huntouched := fillFreeSlots_untouched (q := q) cfg now b u.freeSlotQueue
  exact ⟨huntouched.lists,fun t g hg => huntouched.info g (hinv.apart hg),
    (hinv.fillFreeSlots cfg now b u.freeSlotQueue).pools _⟩

theorem findTeams_rated (h' : findTeams cfg now b q r = some (a,h)) :
    rated cfg now q r a = true ∧ rated cfg now q r h = true ∧
    ((∃ t, a ∈ q.queuedGroups (b,.premade t)) ∧ ∃ t, h ∈ q.queuedGroups (b,.premade t)) ∧
    ((q.info a).arenaTeamId ≠ (q.info h).arenaTeamId ∨
      (q.queuedGroups (b,.premadeAlliance)).find? (rated cfg now q r) = some a ∧
      (q.queuedGroups (b,.premadeHorde)).find? (rated cfg now q r) = some h) := by
  have hsecond : ∀ t a', (q.queuedGroups (b,.premade t)).find? (rated cfg now q r) = some a' →
      (((q.queuedGroups (b,.premade t)).dropWhile (· != a')).find? fun g =>
        rated cfg now q r g && (q.info a').arenaTeamId != (q.info g).arenaTeamId).map
          (fun h => (a',h)) = some (a,h) →
      rated cfg now q r a = true ∧ rated cfg now q r h = true ∧
      ((∃ t, a ∈ q.queuedGroups (b,.premade t)) ∧ ∃ t, h ∈ q.queuedGroups (b,.premade t)) ∧
      (q.info a).arenaTeamId ≠ (q.info h).arenaTeamId := by
    intro t a' hfirst hmap
    obtain ⟨h1,hfind,heq⟩ := Option.map_eq_some_iff.mp hmap
    rw [Prod.mk.injEq] at heq
    obtain ⟨rfl,rfl⟩ := heq
    have hok := List.find?_some hfind
    simp only [Bool.and_eq_true,bne_iff_ne,ne_eq] at hok
    have hin := (List.dropWhile_sublist _).subset (List.mem_of_find?_eq_some hfind)
    exact ⟨List.find?_some hfirst,hok.1,⟨⟨t,List.mem_of_find?_eq_some hfirst⟩,t,hin⟩,hok.2⟩
  unfold findTeams at h'
  simp only at h'
  split at h'
  case h_1 => cases h'
  case h_2 hali _ =>
    obtain ⟨hra,hrh,hin,hne⟩ := hsecond .alliance _ hali h'
    exact ⟨hra,hrh,hin,.inl hne⟩
  case h_3 _ hhorde =>
    obtain ⟨hra,hrh,hin,hne⟩ := hsecond .horde _ hhorde h'
    exact ⟨hra,hrh,hin,.inl hne⟩
  case h_4 hali hhorde =>
    rw [Option.some.injEq,Prod.mk.injEq] at h'
    obtain ⟨rfl,rfl⟩ := h'
    exact ⟨List.find?_some hali,List.find?_some hhorde,
      ⟨⟨.alliance,List.mem_of_find?_eq_some hali⟩,.horde,List.mem_of_find?_eq_some hhorde⟩,
      .inr ⟨hali,hhorde⟩⟩

theorem find?_congr {α : Type} {p p' : α → Bool} {l : List α} (h : ∀ x ∈ l, p x = p' x) :
    l.find? p = l.find? p' := by
  induction l with
  | nil => rfl
  | cons x l ih =>
    rw [List.find?_cons,List.find?_cons,h x List.mem_cons_self,
      ih fun y hy => h y (List.mem_cons_of_mem _ hy)]

theorem rated_congr {q' : BattlegroundQueue} (h' : q'.info g = q.info g) :
    rated cfg now q' r g = rated cfg now q r g := by
  unfold rated BattlegroundQueue.invited
  rw [h']

theorem search_congr (cfg : Settings) (now r : Nat) (u : UpdateInput) {q' : BattlegroundQueue}
    (hlists : q'.queuedGroups = q.queuedGroups)
    (hinfo : ∀ t, ∀ g ∈ q.queuedGroups (b,.premade t), q'.info g = q.info g) :
    wantedRating b u q' = wantedRating b u q ∧ ∀ t,
      (q'.queuedGroups (b,.premade t)).find? (rated cfg now q' r) =
        (q.queuedGroups (b,.premade t)).find? (rated cfg now q r) := by
  refine ⟨?_,fun t => ?_⟩
  · have hhead : ∀ t g, (q.queuedGroups (b,.premade t)).head? = some g → q'.info g = q.info g :=
      fun t g hg => hinfo t g (List.mem_of_mem_head? hg)
    have hali : ∀ g, (q.queuedGroups (b,.premadeAlliance)).head? = some g → q'.info g = q.info g :=
      hhead .alliance
    have hhorde : ∀ g, (q.queuedGroups (b,.premadeHorde)).head? = some g → q'.info g = q.info g :=
      hhead .horde
    unfold wantedRating frontRating
    rw [hlists]
    split_ifs
    · generalize (q.queuedGroups (b,.premadeAlliance)).head? = x at hali
      generalize (q.queuedGroups (b,.premadeHorde)).head? = y at hhorde
      cases x with
      | none =>
        cases y with
        | none => rfl
        | some g => simp only [hhorde g rfl]
      | some g =>
        cases y with
        | none => simp only [hali g rfl]
        | some g' => simp only [hali g rfl,hhorde g' rfl]
    · rfl
  · rw [hlists]
    exact find?_congr fun g hg => rated_congr (hinfo t g hg)

/-- The teams are paired right in every update of every queue, except where the first fitting
groups of both lists are of one arena team. -/
theorem pairsTeams_iff (ops : List Op) (hops : Run.Guarded step Joinable .empty ops)
    (hq : q = Run.exec step .empty ops) :
    PairsTeams cfg now b u q ↔ (ForRatedArena u → ∀ r a h, wantedRating b u q = some r →
      (q.queuedGroups (b,.premadeAlliance)).find? (rated cfg now q r) = some a →
      (q.queuedGroups (b,.premadeHorde)).find? (rated cfg now q r) = some h →
      (q.info a).arenaTeamId ≠ (q.info h).arenaTeamId) := by
  have hinv : Inv none q := hq ▸ hops.inv (fun _ op hi ho => hi.step op ho) inv_empty
  obtain ⟨hlists,hinfo,hinv'⟩ := ratedQueue_spec cfg now b hinv u
  have hsearch := fun r => search_congr cfg now r u hlists hinfo
  constructor
  · intro hpairs harena r a h hrating hali hhorde
    have hteams : findTeams cfg now b (ratedQueue cfg now b u q) r = some (a,h) := by
      have hali' := ((hsearch r).2 .alliance).trans hali
      have hhorde' := ((hsearch r).2 .horde).trans hhorde
      simp only [GroupType.premade] at hali' hhorde'
      unfold findTeams
      simp only [hali',hhorde']
    exact (hpairs r a h ⟨harena,(hsearch r).1.trans hrating,hteams⟩).teams
  · intro hcond r a h hstart
    obtain ⟨hra,hrh,⟨⟨ta,ha⟩,th,hh⟩,hteams⟩ := findTeams_rated hstart.teams
    rw [hlists] at ha hh
    rw [rated_congr (hinfo _ _ ha)] at hra
    rw [rated_congr (hinfo _ _ hh)] at hrh
    have hdiffer : (q.info a).arenaTeamId ≠ (q.info h).arenaTeamId := by
      rw [hinfo _ _ ha,hinfo _ _ hh] at hteams
      rcases hteams with hne | ⟨hali,hhorde⟩
      · exact hne
      · exact hcond hstart.toForRatedArena r a h ((hsearch r).1.symm.trans hstart.rating)
          (((hsearch r).2 .alliance).symm.trans hali) (((hsearch r).2 .horde).symm.trans hhorde)
    have hne : a ≠ h := fun heq => hdiffer (by rw [heq])
    have hfree : q.invited a = false ∧ q.invited h = false := by
      rw [rated_eq,Bool.and_eq_true,Bool.not_eq_true'] at hra hrh
      exact ⟨hra.1,hrh.1⟩
    obtain ⟨inst,hcreated,hupdate⟩ := hstart.update
    have hsome : ∀ t, ∀ g ∈ q.queuedGroups (b,.premade t),
        ((ratedQueue cfg now b u q).groups g).isSome := by
      intro t g hg
      rw [(hinv'.info_eq (hlists ▸ hg)).1]
      rfl
    have hstill : ∀ t, ∀ g ∈ q.queuedGroups (b,.premade t),
        (ratedQueue cfg now b u q).invited g = q.invited g := by
      intro t g hg
      unfold BattlegroundQueue.invited
      rw [hinfo t g hg]
    obtain ⟨hsides,hinsts⟩ := startArena_sides cfg now inst b
      (hsome _ _ ha) (hsome _ _ hh) hne ((hstill _ _ ha).trans hfree.1)
      ((hstill _ _ hh).trans hfree.2)
    rw [← hupdate] at hsides hinsts
    -- after the update each is in one premade list, that of its new team
    have hafter : Inv none (battlegroundQueueUpdate cfg now b u q) := hinv.update cfg now b u
    have hlist : ∀ t g, (∃ t, g ∈ q.queuedGroups (b,.premade t)) →
        ((battlegroundQueueUpdate cfg now b u q).info g).team = t →
        ∀ s, g ∈ (battlegroundQueueUpdate cfg now b u q).queuedGroups s ↔ s = (b,.premade t) := by
      rintro t g ⟨t0,hg⟩ hteam s
      have hin : ∃ t', g ∈ (battlegroundQueueUpdate cfg now b u q).queuedGroups (b,.premade t') := by
        rw [hupdate]
        exact mem_startArena (hlists ▸ hg)
      obtain ⟨t',hin⟩ := hin
      obtain rfl := (hafter.teams b t' g hin (by simp)).symm.trans hteam
      refine ⟨fun hs => slot_unique (hafter.once_of_mem hin) hs hin,fun hs => ?_⟩
      rw [hs]
      exact hin
    exact ⟨hne,hfree,hdiffer,⟨hra,hrh⟩,by rw [hinsts.1,hinsts.2]; exact ⟨hcreated,hcreated⟩,hsides,
      fun s => ⟨hlist .alliance a ⟨ta,ha⟩ hsides.1 s,hlist .horde h ⟨th,hh⟩ hsides.2 s⟩⟩

section Examples

def teamOps (now guid : Nat) (team : Team) (arenaTeamId : Nat) : Op :=
  .addGroup exampleSettings now
    ⟨{guid,guid+1},team,0,exampleBracket,2,true,false,1500,1500,arenaTeamId⟩

def arenaBattleground : Battleground := ⟨0,true,true,0,2,fun _ => 0⟩

def arenaUpdate : UpdateInput := ⟨[],some arenaBattleground,true,2,true,0,none,some 55⟩

theorem pairsTeams_teams : PairsTeams exampleSettings 5000 exampleBracket arenaUpdate
    (Run.exec step .empty [teamOps 1000 1 .alliance 7,teamOps 2000 3 .alliance 8]) := by
  have hjoin : Run.Guarded step Joinable .empty
      [teamOps 1000 1 .alliance 7,teamOps 2000 3 .alliance 8] :=
    ⟨⟨by decide,by decide⟩,⟨by decide,by decide⟩,trivial⟩
  refine (pairsTeams_iff _ hjoin rfl).mpr ?_
  intro _ r a h hrating _ hhorde
  cases hhorde

/-- An arena team with players of both factions queues twice, once for each: it plays against
itself. -/
theorem not_pairsTeams : ¬ PairsTeams exampleSettings 5000 exampleBracket arenaUpdate
    (Run.exec step .empty [teamOps 1000 1 .alliance 7,teamOps 2000 3 .horde 7]) := by
  intro hpairs
  have hteams := (hpairs 1500 0 1 ⟨⟨⟨_,rfl,rfl⟩,rfl,rfl,rfl⟩,by decide,by decide⟩).teams
  exact absurd hteams (by decide)

end Examples

end Rated

end TrinityCore.Battlegrounds
