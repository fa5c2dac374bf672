import TrinityCore.DungeonFinding.FirstFit

set_option autoImplicit false

namespace TrinityCore.Lfg

variable {e : Env} {d : Stores} {s s' s'' : Search} {q q' : LFGQueue} {check : List Nat}

section Foremost

/-- A match of `check` with guids from the list: `blocks` has whom it takes, each with those who
stand between him and the one taken before him. Nobody is taken twice, and whoever is passed
over does not fit those taken before him. -/
structure ForemostMatch (e : Env) (d : Stores) (q : LFGQueue) (check all : List Nat)
    (blocks : List (List Nat × Nat)) : Prop where
  queued : (blocks.flatMap fun b => b.1 ++ [b.2]) <+: all
  distinct : (check ++ blocks.map Prod.snd).Nodup
  full : compat e d q (check ++ blocks.map Prod.snd) = .match
  next : ∀ before b after, blocks = before ++ b :: after →
    compat e d q (check ++ before.map Prod.snd) = .withLessPlayers ∧
    ∀ x ∈ b.1, x ∉ check ++ before.map Prod.snd ∧
      (compat e d q (check ++ before.map Prod.snd ++ [x])).fits = false

theorem foremostMatch_nil {all : List Nat} :
    ForemostMatch e d q check all [] ↔ check.Nodup ∧ compat e d q check = .match := by
  constructor
  · intro h
    exact ⟨by simpa using h.distinct,by simpa using h.full⟩
  · rintro ⟨hnodup,hfull⟩
    exact ⟨List.nil_prefix,by simpa using hnodup,by simpa using hfull,by simp⟩

theorem foremostMatch_cons {all : List Nat} {b : List Nat × Nat} {blocks : List (List Nat × Nat)} :
    ForemostMatch e d q check all (b :: blocks) ↔
      compat e d q check = .withLessPlayers ∧
      (∀ x ∈ b.1, x ∉ check ∧ (compat e d q (check ++ [x])).fits = false) ∧
      ∃ rest, all = b.1 ++ b.2 :: rest ∧ ForemostMatch e d q (check ++ [b.2]) rest blocks := by
  constructor
  · intro h
    obtain ⟨hless,hpassed⟩ := h.next [] b blocks rfl
    obtain ⟨post,hpost⟩ := h.queued
    refine ⟨by simpa using hless,by simpa using hpassed,_,?_,⟨List.prefix_append _ post,?_,?_,?_⟩⟩
    · rw [← hpost]
      simp
    · simpa using h.distinct
    · simpa using h.full
    · rintro before b' after rfl
      simpa using h.next (b :: before) b' after rfl
  · rintro ⟨hless,hpassed,rest,rfl,h⟩
    obtain ⟨post,hpost⟩ := h.queued
    refine ⟨⟨post,?_⟩,by simpa using h.distinct,by simpa using h.full,?_⟩
    · rw [← hpost]
      simp
    · rintro before b' after heq
      cases before with
      | nil =>
        obtain ⟨rfl,rfl⟩ := List.cons.inj heq
        exact ⟨by simpa using hless,by simpa using hpassed⟩
      | cons b₀ before =>
        obtain ⟨rfl,rfl⟩ := List.cons.inj heq
        simpa using h.next before b' after rfl

theorem ForemostMatch.fits {all : List Nat} {blocks : List (List Nat × Nat)}
    (h : ForemostMatch e d q check all blocks) : (compat e d q check).fits = true := by
  cases blocks with
  | nil => rw [(foremostMatch_nil.mp h).2]; rfl
  | cons b rest => rw [(foremostMatch_cons.mp h).1]; rfl

/-- A match takes somebody, as the list is not a full one yet: whom it comes to first, or somebody
after him. -/
theorem ForemostMatch.step {all : List Nat} {blocks : List (List Nat × Nat)}
    (hless : compat e d q check = .withLessPlayers) (h : ForemostMatch e d q check all blocks) :
    ∃ g all', all = g :: all' ∧ g ∉ check ∧
      ((∃ blocks, ForemostMatch e d q (check ++ [g]) all' blocks) ∨
      (compat e d q (check ++ [g])).fits = false ∧ ∃ blocks, ForemostMatch e d q check all' blocks) := by
  cases blocks with
  | nil =>
    rw [(foremostMatch_nil.mp h).2] at hless
    cases hless
  | cons b blocks =>
    obtain ⟨passed,y⟩ := b
    obtain ⟨-,hpassed,rest,rfl,hrest⟩ := foremostMatch_cons.mp h
    cases passed with
    | nil =>
      refine ⟨y,rest,rfl,fun hy => ?_,.inl ⟨blocks,hrest⟩⟩
      exact (List.nodup_append.mp (List.nodup_append.mp hrest.distinct).1).2.2 y hy y
        (List.mem_singleton_self y) rfl
    | cons x passed =>
      obtain ⟨hx,hfits⟩ := hpassed x List.mem_cons_self
      refine ⟨x,passed ++ y :: rest,rfl,hx,.inr ⟨hfits,(passed,y) :: blocks,?_⟩⟩
      exact foremostMatch_cons.mpr
        ⟨hless,fun z hz => hpassed z (List.mem_cons_of_mem x hz),rest,rfl,hrest⟩

theorem ForemostMatch.passing {g : Nat} {all : List Nat} {blocks : List (List Nat × Nat)}
    (h : ForemostMatch e d q check all blocks) (hless : compat e d q check = .withLessPlayers)
    (hg : g ∉ check) (hfits : (compat e d q (check ++ [g])).fits = false) :
    ∃ blocks, ForemostMatch e d q check (g :: all) blocks := by
  cases blocks with
  | nil =>
    rw [(foremostMatch_nil.mp h).2] at hless
    cases hless
  | cons b rest =>
    obtain ⟨-,hpassed,rest',rfl,hrest⟩ := foremostMatch_cons.mp h
    refine ⟨(g :: b.1,b.2) :: rest,foremostMatch_cons.mpr ⟨hless,fun x hx => ?_,rest',rfl,hrest⟩⟩
    rcases List.mem_cons.mp hx with rfl | hx
    · exact ⟨hg,hfits⟩
    · exact hpassed x hx

theorem firstFit_isSome_iff {all : List Nat} (hnodup : check.Nodup)
    (hless : compat e d q check = .withLessPlayers) :
    (firstFit e d q check all).isSome ↔ ∃ blocks, ForemostMatch e d q check all blocks := by
  induction all generalizing check with
  | nil =>
    refine iff_of_false (by simp [firstFit]) ?_
    rintro ⟨blocks,h⟩
    obtain ⟨g,all,hall,-⟩ := h.step hless
    cases hall
  | cons g all ih =>
    have hstep : ∀ {blocks}, ForemostMatch e d q check (g :: all) blocks → g ∉ check ∧
        ((∃ blocks, ForemostMatch e d q (check ++ [g]) all blocks) ∨
        (compat e d q (check ++ [g])).fits = false ∧ ∃ blocks, ForemostMatch e d q check all blocks) := by
      intro blocks h
      obtain ⟨g',all',hall,hcases⟩ := h.step hless
      obtain ⟨rfl,rfl⟩ := List.cons.inj hall
      exact hcases
    simp only [firstFit]
    by_cases hg : g ∈ check
    · rw [if_pos hg]
      refine iff_of_false (by simp) ?_
      rintro ⟨blocks,h⟩
      exact (hstep h).1 hg
    · rw [if_neg hg]
      have hnodup' : (check ++ [g]).Nodup := List.nodup_append.mpr
        ⟨hnodup,List.nodup_singleton g,fun x hx y hy => by
          rw [List.mem_singleton.mp hy]
          exact fun heq => hg (heq ▸ hx)⟩
      cases hc : compat e d q (check ++ [g]) with
      | «match» =>
        refine iff_of_true rfl ⟨[([],g)],foremostMatch_cons.mpr ⟨hless,by simp,all,rfl,?_⟩⟩
        exact foremostMatch_nil.mpr ⟨hnodup',hc⟩
      | withLessPlayers =>
        refine (ih hnodup' hc).trans ⟨?_,?_⟩
        · rintro ⟨blocks,h⟩
          exact ⟨([],g) :: blocks,foremostMatch_cons.mpr ⟨hless,by simp,all,rfl,h⟩⟩
        · rintro ⟨blocks,h⟩
          rcases (hstep h).2 with hrest | ⟨hfits,-⟩
          · exact hrest
          · rw [hc] at hfits
            cases hfits
      | _ =>
        refine (ih hnodup hless).trans ⟨?_,?_⟩
        · rintro ⟨blocks,h⟩
          exact h.passing hless hg (by rw [hc]; rfl)
        · rintro ⟨blocks,h⟩
          rcases (hstep h).2 with ⟨rest,hrest⟩ | ⟨-,hrest⟩
          · have hfits := hrest.fits
            rw [hc] at hfits
            cases hfits
          · exact hrest

theorem firstFitFrom_isSome_iff {front : Nat} {all : List Nat} :
    (firstFitFrom e d q front all).isSome ↔ ∃ blocks, ForemostMatch e d q [front] all blocks := by
  cases hc : compat e d q [front] with
  | «match» =>
    simp only [firstFitFrom,hc]
    exact iff_of_true rfl ⟨[],foremostMatch_nil.mpr ⟨List.nodup_singleton front,hc⟩⟩
  | withLessPlayers =>
    simp only [firstFitFrom,hc]
    exact firstFit_isSome_iff (List.nodup_singleton front) hc
  | _ =>
    simp only [firstFitFrom,hc]
    refine iff_of_false (by simp) ?_
    rintro ⟨blocks,h⟩
    cases blocks with
    | nil =>
      rw [(foremostMatch_nil.mp h).2] at hc
      cases hc
    | cons b rest =>
      rw [(foremostMatch_cons.mp h).1] at hc
      cases hc

end Foremost

section Complete

/-- A legal match of several entries, or of one: five players in all, roles for each of them
that they offered and that make a group, a dungeon they all chose, nobody who ignores another,
and at most one group of the dungeon finder. -/
structure Legal (e : Env) (d : Stores) (q : LFGQueue) (check : List Nat) : Prop where
  entries : ∀ g ∈ check, (q.view g).isSome
  players : ((members q check).map Prod.fst).Nodup
  five : (members q check).length = maxGroupSize
  roles : ∃ vs, Offered vs ((members q check).map Prod.snd) ∧ vs.count Role.tank = tanksNeeded ∧
    vs.count Role.healer = healersNeeded ∧ vs.count Role.damage = dpsNeeded
  dungeon : ∃ x, ∀ g ∈ check, x ∈ dungeons q g
  noIgnore : ∀ p ∈ members q check, ∀ p' ∈ members q check, e.hasIgnore p.1 p'.1 = false
  lfgGroups : check.countP d.isLfgGroup ≤ 1

/-- Some of those who wait make a legal match with the guid. -/
def Matchable (e : Env) (d : Stores) (q : LFGQueue) (front : Nat) : Prop :=
  ∃ t, t.Sublist q.currentQueueStore ∧ Legal e d q (front :: t)

/-- A proposal with the guid has been created. -/
def ProposedWith (front : Nat) (s s' : Search) : Prop :=
  ∃ p ∈ Proposals.newSince s.proposals s'.proposals, front ∈ p.queues

theorem ProposedWith.of_keep {front : Nat} (h : ProposedWith front s s')
    (hkeep : Keeps s s') (h' : Keeps s' s'') : ProposedWith front s s'' := by
  obtain ⟨p,hp,hmem⟩ := h
  refine ⟨p,?_,hmem⟩
  rw [hkeep.newSince_trans h']
  exact List.mem_append_left _ hp

variable {front : Nat} {rest : List Nat}

theorem findGroup_keeps (s : Search) : Keeps s (findGroup e d front s) := by
  have h := findNewGroups_rel (e := e) (d := d) closed_keeps [front]
    (s.queue.removeFromNewQueue front).currentQueueStore
    { s with queue := s.queue.removeFromNewQueue front }
  unfold findGroup
  simp only
  split_ifs <;> exact ⟨h.view,h.created⟩

/-- The round for a guid creates a proposal with it if there is a match by going through the queue
in order, and only then, unless guids are repeated who have no players. -/
theorem findGroup_proposes (s : Search)
    (hq : ∀ g ∈ front :: s.queue.currentQueueStore, d.getState g = .queued)
    (hcache : s.queue.compatibleMapStore = .empty) :
    ((∃ blocks, ForemostMatch e d s.queue [front] s.queue.currentQueueStore blocks) →
      ProposedWith front s (findGroup e d front s)) ∧
    (front ∉ s.queue.currentQueueStore →
      s.queue.currentQueueStore.Nodup ∨ Populated s.queue (front :: s.queue.currentQueueStore) →
      ProposedWith front s (findGroup e d front s) →
      ∃ blocks, ForemostMatch e d s.queue [front] s.queue.currentQueueStore blocks) := by
  have hcurrent : (s.queue.removeFromNewQueue front).currentQueueStore = s.queue.currentQueueStore := rfl
  rw [← firstFitFrom_isSome_iff]
  simp only [findGroup,hcurrent]
  cases hfit : firstFitFrom e d s.queue front s.queue.currentQueueStore with
  | some t =>
    obtain ⟨hmatch,-,p,hp,hqueues⟩ := findNewGroups_found (q := s.queue)
      { s with queue := s.queue.removeFromNewQueue front } (fun _ => rfl) hq hcache hfit
    refine ⟨fun _ => ?_,fun _ _ _ => rfl⟩
    rw [if_pos hmatch]
    exact ⟨p,hp,hqueues ▸ mem_of_firstFitFrom hfit⟩
  | none =>
    refine ⟨fun hsome => absurd hsome (by simp),fun hfront hscope hprop => ?_⟩
    obtain ⟨hnot,-,hnone⟩ := findNewGroups_none (q := s.queue)
      { s with queue := s.queue.removeFromNewQueue front } (fun _ => rfl) hq hfront hscope hcache hfit
    rw [if_neg hnot] at hprop
    obtain ⟨p,hp,hmem⟩ := hprop
    exact absurd hmem (hnone p hp)

/-- The new guid at the front is matched if the search in the order of the queue comes to a match.
Its own round does not match it otherwise, so that this is exact when no other guid is new. -/
theorem findGroups_complete_iff (e : Env) (d : Stores) (s : Search) (front : Nat) (rest : List Nat)
    (hnew : s.queue.newToQueueStore = front :: rest)
    (hq : ∀ g ∈ s.queue.newToQueueStore ++ s.queue.currentQueueStore, d.getState g = .queued)
    (hcache : s.queue.compatibleMapStore = .empty) :
    ((¬ Matchable e d s.queue front ∨
        ∃ blocks, ForemostMatch e d s.queue [front] s.queue.currentQueueStore blocks) →
      Matchable e d s.queue front → ProposedWith front s (findGroups e d s)) ∧
    (front ∉ s.queue.currentQueueStore →
      s.queue.currentQueueStore.Nodup ∨ Populated s.queue (front :: s.queue.currentQueueStore) →
      ((Matchable e d s.queue front → ProposedWith front s (findGroup e d front s)) ↔
        (¬ Matchable e d s.queue front ∨
          ∃ blocks, ForemostMatch e d s.queue [front] s.queue.currentQueueStore blocks)) ∧
      (rest = [] →
        ((Matchable e d s.queue front → ProposedWith front s (findGroups e d s)) ↔
          (¬ Matchable e d s.queue front ∨
            ∃ blocks, ForemostMatch e d s.queue [front] s.queue.currentQueueStore blocks)))) := by
  have hq' : ∀ g ∈ front :: s.queue.currentQueueStore, d.getState g = .queued := by
    intro g hg
    refine hq g ?_
    rw [hnew]
    rcases List.mem_cons.mp hg with rfl | hg
    · simp
    · exact List.mem_append_right _ hg
  have hround : findGroups e d s = findGroupsFuel e d rest.length (findGroup e d front s) := by
    simp only [findGroups,hnew,List.length_cons,findGroupsFuel]
  obtain ⟨hfound,hnone⟩ := findGroup_proposes (e := e) (d := d) s hq' hcache
  refine ⟨fun hcond hm => ?_,fun hfront hscope => ?_⟩
  · rw [hround]
    exact (hfound (hcond.resolve_left (not_not_intro hm))).of_keep (findGroup_keeps s)
      (findGroupsFuel_keeps rest.length _)
  · have hiff : ProposedWith front s (findGroup e d front s) ↔
        ∃ blocks, ForemostMatch e d s.queue [front] s.queue.currentQueueStore blocks :=
      ⟨hnone hfront hscope,hfound⟩
    refine ⟨?_,fun hrest => ?_⟩
    · rw [hiff,imp_iff_not_or]
    · rw [hround,hrest,imp_iff_not_or]
      exact or_congr_right hiff

/-- Player 4 stands in the queue twice, the second time behind the last of the match. -/
def soloSearch : Search :=
  ⟨{ soloQueue with newToQueueStore := [5], currentQueueStore := [1,2,3,4,4] },.empty,[]⟩

theorem findGroups_complete_solos :
    Matchable peace queuedStores soloSearch.queue 5 ∧
    ProposedWith 5 soloSearch (findGroups peace queuedStores soloSearch) := by
  have hlegal : Legal peace queuedStores soloSearch.queue [5,1,2,3,4] := by
    constructor
    case roles =>
      refine ⟨[Role.damage,Role.tank,Role.healer,Role.damage,Role.damage],?_,by decide,by decide,by decide⟩
      have hoffer : (members soloSearch.queue [5,1,2,3,4]).map Prod.snd =
          [Role.damage,Role.tank,Role.healer,Role.damage,Role.damage] := by decide
      rw [hoffer]
      exact ⟨rfl,fun i => BitVec.or_self⟩
    case dungeon => exact ⟨7,by decide⟩
    all_goals decide
  have hmatch : Matchable peace queuedStores soloSearch.queue 5 := ⟨[1,2,3,4],by decide,hlegal⟩
  have hfit : (firstFitFrom peace queuedStores soloSearch.queue 5 [1,2,3,4,4]).isSome := by
    decide +kernel
  exact ⟨hmatch,(findGroups_complete_iff peace queuedStores soloSearch 5 [] rfl (by decide) rfl).1
    (.inr (firstFitFrom_isSome_iff.mp hfit)) hmatch⟩

/-- Player 1 is a tank for two dungeons. The first in the queue wants the one dungeon, and the
three others who deal damage and the healer want the other one. -/
def tankSearch : Search :=
  ⟨{ LFGQueue.empty with
      newToQueueStore := [1]
      currentQueueStore := [2,3,4,5,6]
      queueDataStore := fun guid => some (soloData guid
        (if guid = 1 then Role.tank else if guid = 6 then Role.healer else Role.damage)
        (if guid = 1 then {7,8} else if guid = 2 then {7} else {8})) },.empty,[]⟩

/-- The tank takes the first in the queue along and stays without a group, though the others
would make one with him. -/
theorem tank_left_waiting :
    Matchable peace queuedStores tankSearch.queue 1 ∧
    ¬ ProposedWith 1 tankSearch (findGroups peace queuedStores tankSearch) := by
  constructor
  · refine ⟨[3,4,5,6],by decide,?_⟩
    constructor
    case roles =>
      refine ⟨[Role.tank,Role.damage,Role.damage,Role.damage,Role.healer],?_,by decide,by decide,by decide⟩
      have hoffer : (members tankSearch.queue [1,3,4,5,6]).map Prod.snd =
          [Role.tank,Role.damage,Role.damage,Role.damage,Role.healer] := by decide
      rw [hoffer]
      exact ⟨rfl,fun i => BitVec.or_self⟩
    case dungeon => exact ⟨8,by decide⟩
    all_goals decide
  · have hnone : (Proposals.newSince tankSearch.proposals
        (findGroups peace queuedStores tankSearch).proposals).length = 0 := by
      decide +kernel
    rintro ⟨p,hp,-⟩
    rw [List.length_eq_zero_iff.mp hnone] at hp
    simp at hp

end Complete

end TrinityCore.Lfg
